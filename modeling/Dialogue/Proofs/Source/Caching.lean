import Dialogue.Proofs.Files.ReadWrite
import Dialogue.Proofs.Script.Stored
import Dialogue.Source.Basic
import Mathlib.Data.List.Induction

/-!
# A cache through a run of loads

A cache whose file is its own gives the rows that the source behind it gave last.

* A `Query` is one load of a cache: whether it is forced, and what the source behind the cache does
  then if it is asked. `Cache.Outcome` are the three ways in which a load can end.
* `Cache.Coherent` says that the cache file holds the rows that were given last. Every load keeps
  this (`Cache.Coherent.load`), so it is true through every run (`Cache.coherent_loads`).
* `Cache.load_coherent` is what a load in the course of such a run does.
-/

namespace Dialogue

open Files

def Source.kind : Source → SourceKind
  | sheets _ => .sheets
  | rows _ => .rows
  | unavailable _ => .unavailable
  | cached _ _ => .cached

/-- The rows that the source behind a cache gave in this loading, if it was asked and had some. -/
def Loading.given? (loading : Loading) : Option (List Row) :=
  if loading.asked = [] then none else loading.result.toOption

namespace Cache

/-- One load of a cache. -/
structure Query where
  force : Bool
  /-- The kind of the source behind the cache. -/
  kind : SourceKind
  /-- What the source behind the cache answers this time and what it does to the files, asked with
  this flag. -/
  answer : Bool → Tree → Except SourceError (List Row) × Tree

namespace Query

/-- The source behind the cache, as it is at this query. -/
def ask (q : Query) (force : Bool) (t : Tree) : Loading :=
  ⟨(q.answer force t).1, (q.answer force t).2, [(q.kind, force)]⟩

def load (path : String) (q : Query) (t : Tree) : Loading :=
  Cache.load path q.ask q.force t

/-- The source behind the cache leaves the cache file alone. -/
def Spares (path : String) (q : Query) : Prop :=
  ∀ force t, (q.answer force t).2.read path = t.read path ∧
    (t.Writable path → (q.answer force t).2.Writable path)

/-- A query to a cache in front of this source. -/
def ofSource (inner : Source) (force : Bool) : Query :=
  ⟨force, inner.kind, fun force t => ((inner.load force t).result, (inner.load force t).tree)⟩

end Query

/-- What each of these queries gets, one after the other. -/
def loads (path : String) : List Query → Tree → List Loading
  | [], _ => []
  | q :: qs, t => q.load path t :: loads path qs (q.load path t).tree

/-- The files after these queries. -/
def treeAfter (path : String) (qs : List Query) (t : Tree) : Tree :=
  qs.foldl (fun t q => (q.load path t).tree) t

/-- The rows that the source behind the cache gave last. -/
def lastGiven (loadings : List Loading) : Option (List Row) :=
  (loadings.filterMap Loading.given?).getLast?

variable {path : String} {q : Query} {qs : List Query} {t : Tree} {loadings : List Loading}
  {rows : List Row}

/-! ## The cache file -/

theorem read?_write (h : t.Writable path) (rows : List Row) :
    read? path (write path rows t) = some rows := by
  rw [read?, write, h.read_put]
  exact storedRows?_bytesOf rows

theorem read?_eq_of_read {t' : Tree} (h : t'.read path = t.read path) :
    read? path t' = read? path t := by
  rw [read?, read?, h]

theorem read?_of_absent (h : t.exists? path = false) : read? path t = none := by
  unfold Tree.exists? at h
  split at h
  · cases h
  · rename_i fault hfault
    rw [read?, Tree.read, hfault]
    rfl

/-! ## One load -/

/-- The ways in which a load can end: with the rows of the cache file, with rows of the source
behind the cache, or with its failure. -/
inductive Outcome (path : String) (q : Query) (t : Tree) : Loading → Prop
  | kept {rows : List Row} (hforce : q.force = false) (hread : read? path t = some rows) :
      Outcome path q t ⟨.ok rows, t, []⟩
  | fresh {rows : List Row} (hpast : q.force = true ∨ read? path t = none)
      (hanswer : (q.answer true t).1 = .ok rows) :
      Outcome path q t ⟨.ok rows, write path rows (q.answer true t).2, [(q.kind, true)]⟩
  | failed {e : SourceError} (hpast : q.force = true ∨ read? path t = none)
      (hanswer : (q.answer true t).1 = .error e) :
      Outcome path q t ⟨.error e, (q.answer true t).2, [(q.kind, true)]⟩

theorem load_of_hit (hforce : q.force = false) (hread : read? path t = some rows) :
    q.load path t = ⟨.ok rows, t, []⟩ := by
  rw [Query.load, Cache.load, hforce, if_neg Bool.false_ne_true, hread]

theorem load_of_miss (hpast : q.force = true ∨ read? path t = none) :
    q.load path t = match (q.answer true t).1 with
      | .ok rows => ⟨.ok rows, write path rows (q.answer true t).2, [(q.kind, true)]⟩
      | .error e => ⟨.error e, (q.answer true t).2, [(q.kind, true)]⟩ := by
  have hmiss : (if q.force then none else read? path t) = none := by
    split
    · rfl
    · rename_i hforce
      exact hpast.resolve_left hforce
  rw [Query.load, Cache.load, hmiss]
  cases hanswer : (q.answer true t).1 <;> simp only [Query.ask, hanswer]

theorem outcome_load (path : String) (q : Query) (t : Tree) :
    Outcome path q t (q.load path t) := by
  by_cases hpast : q.force = true ∨ read? path t = none
  · rw [load_of_miss hpast]
    split
    · rename_i rows hanswer
      exact .fresh hpast hanswer
    · rename_i e hanswer
      exact .failed hpast hanswer
  · obtain ⟨hforce, hread⟩ := not_or.1 hpast
    obtain ⟨rows, hread⟩ := Option.ne_none_iff_exists'.1 hread
    rw [Bool.not_eq_true] at hforce
    rw [load_of_hit hforce hread]
    exact .kept hforce hread

/-- A cached source answers as the query to its cache does. -/
theorem load_cached (path : String) (inner : Source) (force : Bool) (t : Tree) :
    ((Source.cached path inner).load force t).result =
        ((Query.ofSource inner force).load path t).result ∧
      ((Source.cached path inner).load force t).tree =
        ((Query.ofSource inner force).load path t).tree := by
  dsimp only [Source.load, Query.load, Cache.load, Query.ofSource, Query.ask]
  cases hread : if force then none else read? path t with
  | some rows => exact ⟨rfl, rfl⟩
  | none =>
    cases hresult : (inner.load true t).result with
    | ok rows => exact ⟨rfl, rfl⟩
    | error e => exact ⟨hresult, rfl⟩

/-- Sources without a cache of their own leave every file alone. -/
theorem spares_ofSource {inner : Source} (h : inner.kind ≠ .cached) (force : Bool) :
    (Query.ofSource inner force).Spares path := by
  intro flag t
  have htree : (inner.load flag t).tree = t := by
    cases inner with
    | cached path' inner => exact absurd rfl h
    | sheets _ => rfl
    | rows _ => rfl
    | unavailable _ => rfl
  dsimp only [Query.ofSource]
  rw [htree]
  exact ⟨rfl, id⟩

/-! ## Runs of loads -/

theorem lastGiven_concat (loadings : List Loading) (loading : Loading) :
    lastGiven (loadings ++ [loading]) = loading.given?.or (lastGiven loadings) := by
  rw [lastGiven, List.filterMap_append, List.getLast?_append]
  cases h : loading.given? <;> simp [h, lastGiven]

theorem lastGiven_eq_none (h : ∀ loading ∈ loadings, ∀ rows, loading.result ≠ .ok rows) :
    lastGiven loadings = none := by
  have hnone : loadings.filterMap Loading.given? = [] := by
    refine List.filterMap_eq_nil_iff.2 fun loading hmem => ?_
    unfold Loading.given?
    split
    · rfl
    · cases hresult : loading.result with
      | error e => rfl
      | ok rows => exact absurd hresult (h loading hmem rows)
  rw [lastGiven, hnone]
  rfl

theorem loads_concat (path : String) (qs : List Query) (q : Query) (t : Tree) :
    loads path (qs ++ [q]) t = loads path qs t ++ [q.load path (treeAfter path qs t)] := by
  induction qs generalizing t with
  | nil => rfl
  | cons q' qs ih =>
    rw [List.cons_append, loads, ih]
    rfl

theorem treeAfter_concat (path : String) (qs : List Query) (q : Query) (t : Tree) :
    treeAfter path (qs ++ [q]) t = (q.load path (treeAfter path qs t)).tree :=
  List.foldl_concat ..

/-- The cache file holds the rows that were given last, and can be written. -/
structure Coherent (path : String) (loadings : List Loading) (t : Tree) : Prop where
  holds : read? path t = lastGiven loadings
  writable : t.Writable path
  /-- Whatever was loaded was given first. -/
  given : (∃ loading ∈ loadings, ∃ rows, loading.result = .ok rows) → (lastGiven loadings).isSome

/-- A load keeps a cache coherent, whichever way it ends. -/
theorem Coherent.load (h : Coherent path loadings t) (hspares : q.Spares path) :
    Coherent path (loadings ++ [q.load path t]) (q.load path t).tree := by
  obtain ⟨hread, hwritable⟩ := hspares true t
  have houtcome := outcome_load path q t
  generalize q.load path t = loading at houtcome ⊢
  cases houtcome with
  | kept hforce hrows =>
    rename_i rows
    have hlast : lastGiven (loadings ++ [⟨.ok rows, t, []⟩]) = some rows := by
      rw [lastGiven_concat, ← hrows, h.holds]
      rfl
    exact ⟨hrows.trans hlast.symm, h.writable, fun _ => by rw [hlast]; rfl⟩
  | fresh hpast hanswer =>
    rename_i rows
    have hlast : lastGiven (loadings ++ [⟨.ok rows, write path rows (q.answer true t).2,
        [(q.kind, true)]⟩]) = some rows := by
      rw [lastGiven_concat]
      rfl
    have hput := hwritable h.writable
    exact ⟨(read?_write hput rows).trans hlast.symm, hput.put _, fun _ => by rw [hlast]; rfl⟩
  | failed hpast hanswer =>
    rename_i e
    have hlast : lastGiven (loadings ++ [⟨.error e, (q.answer true t).2, [(q.kind, true)]⟩]) =
        lastGiven loadings := by
      rw [lastGiven_concat]
      rfl
    refine ⟨?_, hwritable h.writable, ?_⟩
    · rw [hlast, ← h.holds]
      exact read?_eq_of_read hread
    · rintro ⟨loading, hmem, rows, hok⟩
      rw [hlast]
      rcases List.mem_append.1 hmem with hmem | hmem
      · exact h.given ⟨loading, hmem, rows, hok⟩
      · obtain rfl := List.mem_singleton.1 hmem
        cases hok

/-- A cache that starts without its file is coherent through every run. -/
theorem coherent_loads (habsent : t.exists? path = false) (hwritable : t.Writable path)
    (hspares : ∀ q ∈ qs, q.Spares path) :
    Coherent path (loads path qs t) (treeAfter path qs t) := by
  induction qs using List.reverseRecOn with
  | nil =>
    refine ⟨read?_of_absent habsent, hwritable, ?_⟩
    rintro ⟨loading, h, -⟩
    cases h
  | append_singleton qs q ih =>
    obtain ⟨hqs, hq⟩ := List.forall_mem_append.1 hspares
    rw [loads_concat, treeAfter_concat]
    exact (ih hqs).load (hq q List.mem_cons_self)

/-- A load in the course of a run. Unforced, and after a load that had rows, it asks nobody and has
the rows that the source behind the cache gave last. Otherwise it asks that source once, past every
further cache, and has its rows or its failure. Where it fails, the cache file stays as it is, and
so do the rows given last. -/
theorem load_coherent {start : Tree} {before : List Query} {q : Query}
    (habsent : start.exists? path = false) (hwritable : start.Writable path)
    (hspares : ∀ q' ∈ before ++ [q], q'.Spares path) :
    let earlier := loads path before start
    let files := treeAfter path before start
    let loading := q.load path files
    (q.force = false ∧ (∃ l ∈ earlier, ∃ rows, l.result = .ok rows) → loading.asked = [] ∧
      ∃ rows, lastGiven earlier = some rows ∧ loading.result = .ok rows) ∧
    (q.force = true ∨ (∀ l ∈ earlier, ∀ rows, l.result ≠ .ok rows) →
      loading.asked = [(q.kind, true)] ∧ loading.result = (q.answer true files).1) ∧
    (∀ e, loading.result = .error e → loading.tree.read path = files.read path ∧
      lastGiven (earlier ++ [loading]) = lastGiven earlier) := by
  intro earlier files loading
  obtain ⟨hbefore, hq⟩ := List.forall_mem_append.1 hspares
  have hcoherent : Coherent path earlier files := coherent_loads habsent hwritable hbefore
  have hread : (q.answer true files).2.read path = files.read path :=
    (hq q List.mem_cons_self true files).1
  refine ⟨?_, ?_, ?_⟩
  · rintro ⟨hforce, hloaded⟩
    obtain ⟨rows, hrows⟩ := Option.isSome_iff_exists.1 (hcoherent.given hloaded)
    have hload : loading = ⟨.ok rows, files, []⟩ :=
      load_of_hit hforce (hcoherent.holds.trans hrows)
    rw [hload]
    exact ⟨rfl, rows, hrows, rfl⟩
  · intro hpast
    have hload := load_of_miss (hpast.imp_right fun hnone =>
      hcoherent.holds.trans (lastGiven_eq_none hnone))
    show (q.load path files).asked = _ ∧ (q.load path files).result = _
    rw [hload]
    split <;> exact ⟨rfl, by rw [‹(q.answer true files).1 = _›]⟩
  · intro e hfailed
    have houtcome : Outcome path q files loading := outcome_load path q files
    clear_value loading
    cases houtcome with
    | kept hforce hrows => cases hfailed
    | fresh hpast hanswer => cases hfailed
    | failed hpast hanswer =>
      refine ⟨hread, ?_⟩
      rw [lastGiven_concat]
      rfl

/-- The source behind the cache is out of reach, then has rows, is out of reach when the cache is
asked to be renewed, and has other rows at the end, which nobody asks for. -/
theorem load_coherent_renewed :
    let path := "cache/dialogue.json"
    let row (line : String) : Row := { scene := 1, command := .say, line }
    let old := Query.ofSource (.rows [row "old"])
    let away := Query.ofSource (.unavailable "offline")
    let new := Query.ofSource (.rows [row "new"])
    let before := [away false, old false, away true]
    (Tree.exists? {} path = false ∧ Tree.Writable {} path ∧
      ∀ q ∈ before ++ [new false], q.Spares path) ∧
    ((new false).load path (treeAfter path before {})).asked = [] ∧
    ((new false).load path (treeAfter path before {})).result = .ok [row "old"] := by
  intro path row old away new before
  have habsent : Tree.exists? {} path = false := by decide +kernel
  have hwritable : Tree.Writable {} path := by
    refine ⟨⟨.dir [("cache", .dir [])], []⟩, ["cache", "dialogue.json"], ?_, by decide +kernel⟩
    have hparent : (Path.ofText path).parent? = some ⟨["cache"]⟩ := by decide +kernel
    have hsize : (⟨["cache"]⟩ : Path).size ≠ 0 := by decide +kernel
    rw [Tree.makeParents, hparent]
    show Tree.makeDirsAt {} ⟨["cache"]⟩ = _
    rw [Tree.makeDirsAt, if_neg hsize]
    rfl
  have hspares : ∀ q ∈ before ++ [new false], q.Spares path := by
    have haway (force : Bool) : (away force).Spares path := spares_ofSource (by decide) force
    simp only [before, List.cons_append, List.nil_append, List.forall_mem_cons]
    exact ⟨haway false, spares_ofSource (by decide) false, haway true,
      spares_ofSource (by decide) false, List.forall_mem_nil _⟩
  have hlast : lastGiven (loads path before {}) = some [row "old"] := by decide +kernel
  have hloaded : ∃ l ∈ loads path before {}, ∃ rows, l.result = .ok rows := by
    by_contra hnone
    push Not at hnone
    rw [lastGiven_eq_none hnone] at hlast
    cases hlast
  obtain ⟨hkept, -⟩ := load_coherent habsent hwritable hspares
  obtain ⟨hasked, rows, hrows, hresult⟩ := hkept ⟨rfl, hloaded⟩
  cases hlast.symm.trans hrows
  exact ⟨⟨habsent, hwritable, hspares⟩, hasked, hresult⟩

end Cache

end Dialogue
