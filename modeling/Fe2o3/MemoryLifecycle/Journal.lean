import Fe2o3.Lib.Positions
import Fe2o3.Lib.SearchTree

/-!
# Indexed journals

Records in the order in which they were appended, and a search tree from their keys to
their positions.

The persistent tree of records in the source is a sequence that supports access by
position; here it is a list.  The assertions of `push` and `retain` that a key is
new are results that may be missing.  A journal is coherent when its index holds
exactly the positions of its keys; it then behaves like the list of its records.
-/

namespace Fe2o3.MemoryLifecycle

open Lib
open List hiding lookup
open scoped List

structure IndexedJournal {ρ κ : Type} (key : ρ → κ) where
  records : List ρ
  index : SearchTree κ Nat

namespace IndexedJournal

variable {ρ κ : Type} {key : ρ → κ}

def new : IndexedJournal key := ⟨[], .leaf⟩

variable [LinearKey κ]

variable (journal : IndexedJournal key)

def indexIsCoherent : Bool :=
  journal.index.length == journal.records.length &&
    journal.records.zipIdx.all fun row => journal.index.find (key row.1) == some row.2

def push (record : ρ) : Option (IndexedJournal key) :=
  let (index, inserted) := journal.index.insert (key record) journal.records.length
  if inserted then some ⟨journal.records ++ [record], index⟩ else none

def get (k : κ) : Option ρ :=
  (journal.index.find k).bind fun position => journal.records[position]?

/-- An assignment through the reference that `get_mut` returns. -/
def getMut (k : κ) (f : ρ → ρ) : Option (IndexedJournal key) :=
  (journal.index.find k).bind fun position =>
    if position < journal.records.length then
      some { journal with records := journal.records.modify position f }
    else none

/-- The index of the records from a position on. -/
def reindex (key : ρ → κ) (index : SearchTree κ Nat) (position : Nat) :
    List ρ → Option (SearchTree κ Nat)
  | [] => some index
  | record :: rest =>
    let (next, inserted) := index.insert (key record) position
    if inserted then reindex key next (position + 1) rest else none

def retain (keep : ρ → Bool) : Option (IndexedJournal key) :=
  (reindex key .leaf 0 (journal.records.filter keep)).map fun index =>
    ⟨journal.records.filter keep, index⟩

/-! ### Coherent journals -/

/-- The index holds the keys of the records with their positions. -/
structure Coherent (journal : IndexedJournal key) : Prop where
  ordered : journal.index.Ordered
  entries : journal.index.entries ~ (journal.records.map key).zipIdx

variable {journal : IndexedJournal key}

theorem new_coherent : (new : IndexedJournal key).Coherent := ⟨.nil, .nil⟩

theorem Coherent.find_eq_some (h : journal.Coherent) {k : κ} {position : Nat} :
    journal.index.find k = some position ↔
      ∃ record, journal.records[position]? = some record ∧ key record = k := by
  rw [SearchTree.find_eq_some h.ordered, h.entries.mem_iff, mem_zipIdx_iff_getElem?,
    getElem?_map, Option.map_eq_some_iff]

theorem Coherent.indexIsCoherent (h : journal.Coherent) : journal.indexIsCoherent = true := by
  have hlength := h.entries.length_eq
  rw [SearchTree.length_entries, length_zipIdx, length_map] at hlength
  unfold IndexedJournal.indexIsCoherent
  rw [hlength, Bool.and_eq_true, all_eq_true]
  refine ⟨beq_self_eq_true _, fun row hrow => ?_⟩
  rw [beq_iff_eq, h.find_eq_some]
  exact ⟨row.1, mem_zipIdx_iff_getElem?.mp hrow, rfl⟩

variable [DecidableEq κ]

omit [DecidableEq κ] in
theorem Coherent.distinctKeys (h : journal.Coherent) : DistinctKeys key journal.records := by
  have hkeys : (journal.index.entries.map Prod.fst).Nodup := by
    apply pairwise_map.mpr
    apply h.ordered.imp
    intro earlier later hlt heq
    rw [heq] at hlt
    exact lt_irrefl _ hlt
  have hperm := h.entries.map Prod.fst
  rw [zipIdx_map_fst] at hperm
  exact pairwise_map.mp (hperm.nodup_iff.mp hkeys)

theorem Coherent.get_eq (h : journal.Coherent) (k : κ) :
    journal.get k = lookup key k journal.records := by
  unfold get
  cases hfind : journal.index.find k with
  | some position =>
    obtain ⟨record, hrecord, hkey⟩ := h.find_eq_some.mp hfind
    have hfound := lookup_of_mem h.distinctKeys (mem_of_getElem? hrecord)
    rw [hkey] at hfound
    rw [hfound]
    exact hrecord
  | none =>
    symm
    apply lookup_eq_none
    intro record hmem hkey
    obtain ⟨position, hposition⟩ := getElem?_of_mem hmem
    rw [h.find_eq_some.mpr ⟨record, hposition, hkey⟩] at hfind
    nomatch hfind

/-! ### Operations -/

omit [DecidableEq κ] in
/-- The index after one more record, if its key is new. -/
theorem insert_coherent {records : List ρ} {index : SearchTree κ Nat} {record : ρ}
    (h : (⟨records, index⟩ : IndexedJournal key).Coherent)
    (hnew : ∀ old ∈ records, key old ≠ key record) :
    (index.insert (key record) records.length).2 = true ∧
      (⟨records ++ [record], (index.insert (key record) records.length).1⟩ :
        IndexedJournal key).Coherent := by
  have hentries : ∀ entry ∈ index.entries, entry.1 ≠ key record := by
    intro entry hmem
    have hkey := fst_mem_of_mem_zipIdx (h.entries.mem_iff.mp hmem)
    obtain ⟨old, hold, hkey⟩ := mem_map.mp hkey
    exact hkey ▸ hnew old hold
  obtain ⟨hinserted, hordered, hperm⟩ :=
    SearchTree.insert_new h.ordered records.length hentries
  refine ⟨hinserted, hordered, ?_⟩
  rw [map_append, zipIdx_append, length_map, Nat.zero_add]
  calc
    _ ~ (key record, records.length) :: index.entries := hperm
    _ ~ (key record, records.length) :: (records.map key).zipIdx := h.entries.cons _
    _ ~ (records.map key).zipIdx ++ [(key record, records.length)] :=
      (perm_append_singleton ..).symm

omit [DecidableEq κ] in
theorem Coherent.push (h : journal.Coherent) {record : ρ}
    (hnew : ∀ old ∈ journal.records, key old ≠ key record) :
    ∃ next, journal.push record = some next ∧ next.Coherent ∧
      next.records = journal.records ++ [record] := by
  obtain ⟨hinserted, hcoherent⟩ := insert_coherent h hnew
  refine ⟨_, ?_, hcoherent, rfl⟩
  exact if_pos hinserted

omit [LinearKey κ] in
theorem amend_eq_modify {records : List ρ} {position : Nat} {record : ρ} {f : ρ → ρ}
    (hdistinct : DistinctKeys key records) (hrecord : records[position]? = some record) :
    amend key (key record) f records = records.modify position f := by
  induction records generalizing position with
  | nil => nomatch hrecord
  | cons first rest ih =>
    obtain ⟨hfirst, hrest⟩ := pairwise_cons.mp hdistinct
    cases position with
    | zero =>
      cases hrecord
      rw [amend, if_pos rfl]
      rfl
    | succ position =>
      rw [amend, if_neg (hfirst record (mem_of_getElem? hrecord)), ih hrest hrecord]
      rfl

/-- A change of the record with a key, at the position that the index has for it. -/
theorem Coherent.modify (h : journal.Coherent) {k : κ} {record : ρ} {f : ρ → ρ}
    (hkey : key (f record) = k) (hfound : lookup key k journal.records = some record) :
    ∃ position, journal.index.find k = some position ∧ position < journal.records.length ∧
      (⟨journal.records.modify position f, journal.index⟩ : IndexedJournal key).Coherent ∧
      journal.records.modify position f = amend key k f journal.records := by
  obtain ⟨position, hposition⟩ := getElem?_of_mem (lookup_mem hfound)
  have hk : key record = k := lookup_key hfound
  refine ⟨position, h.find_eq_some.mpr ⟨record, hposition, hk⟩,
    (List.getElem?_eq_some_iff.mp hposition).1, ⟨h.ordered, ?_⟩, ?_⟩
  · show journal.index.entries ~ ((journal.records.modify position f).map key).zipIdx
    rw [map_modify_self hposition (hkey.trans hk.symm)]
    exact h.entries
  · rw [← hk]
    exact (amend_eq_modify h.distinctKeys hposition).symm

theorem Coherent.getMut (h : journal.Coherent) {k : κ} {record : ρ} {f : ρ → ρ}
    (hkey : key (f record) = k) (hfound : lookup key k journal.records = some record) :
    ∃ next, journal.getMut k f = some next ∧ next.Coherent ∧
      next.records = amend key k f journal.records := by
  obtain ⟨position, hfind, hlt, hcoherent, hamend⟩ := h.modify hkey hfound
  refine ⟨_, ?_, hcoherent, hamend⟩
  unfold IndexedJournal.getMut
  rw [hfind]
  exact if_pos hlt

omit [DecidableEq κ] in
theorem reindex_coherent {seen rest : List ρ} {index : SearchTree κ Nat}
    (h : (⟨seen, index⟩ : IndexedJournal key).Coherent)
    (hdistinct : DistinctKeys key (seen ++ rest)) :
    ∃ next, reindex key index seen.length rest = some next ∧
      (⟨seen ++ rest, next⟩ : IndexedJournal key).Coherent := by
  induction rest generalizing seen index with
  | nil => exact ⟨index, rfl, by rwa [append_nil]⟩
  | cons record rest ih =>
    obtain ⟨-, -, hacross⟩ := pairwise_append.mp hdistinct
    obtain ⟨hinserted, hnext⟩ :=
      insert_coherent h fun old hold => hacross old hold record (mem_cons_self ..)
    rw [append_cons] at hdistinct
    obtain ⟨next, hreindex, hcoherent⟩ := ih hnext hdistinct
    rw [length_append] at hreindex
    refine ⟨next, ?_, by rwa [append_cons]⟩
    unfold reindex
    exact (if_pos hinserted).trans hreindex

theorem Coherent.retain (h : journal.Coherent) (keep : ρ → Bool) :
    ∃ next, journal.retain keep = some next ∧ next.Coherent ∧
      next.records = journal.records.filter keep := by
  have hdistinct : DistinctKeys key (journal.records.filter keep) :=
    h.distinctKeys.sublist filter_sublist
  have hempty : (new : IndexedJournal key).Coherent := new_coherent
  obtain ⟨index, hreindex, hcoherent⟩ := reindex_coherent hempty hdistinct
  refine ⟨_, ?_, hcoherent, rfl⟩
  unfold IndexedJournal.retain
  rw [show reindex key .leaf 0 (journal.records.filter keep) = some index from hreindex]
  rfl

end IndexedJournal

end Fe2o3.MemoryLifecycle
