import Mathlib

/-!
# Compressed rows

A list of labelled entries `(row, value)` is turned into one array of values grouped by
row and one array of row offsets: count the entries of every row, take running sums, and
place each entry at its row's cursor.  `rowSlice_fillRows` says that the slice between
two offsets is exactly the row, in the order of the entries.
-/

namespace Fe2o3.Lib

open List

/-! ### Tables -/

theorem getD_set {α : Type} (table : List α) (i j : Nat) (a d : α) :
    (table.set i a).getD j d = if i = j ∧ i < table.length then a else table.getD j d := by
  by_cases hij : i = j
  · subst hij
    by_cases hlt : i < table.length
    · simp [hlt]
    · simp [hlt]
  · simp [hij]

theorem getD_set_ne {α : Type} (table : List α) {i j : Nat} (a d : α) (h : i ≠ j) :
    (table.set i a).getD j d = table.getD j d := by
  rw [getD_set, if_neg (fun both => h both.1)]

theorem getD_set_self {α : Type} (table : List α) {i : Nat} (a d : α) (h : i < table.length) :
    (table.set i a).getD i d = a := by
  rw [getD_set, if_pos ⟨rfl, h⟩]

/-! ### Ranks -/

theorem getD_foldl_set_of_notMem {order : List Nat} {start : Nat} {ranks : List Nat} {i d : Nat}
    (h : i ∉ order) :
    ((order.zipIdx start).foldl (fun ranks entry => ranks.set entry.1 entry.2) ranks).getD i d =
      ranks.getD i d := by
  induction order generalizing start ranks with
  | nil => rfl
  | cons first rest ih =>
    rw [zipIdx_cons, foldl_cons, ih (fun hmem => h (mem_cons_of_mem _ hmem))]
    exact getD_set_ne _ _ _ fun heq : first = i => h (by rw [heq]; exact mem_cons_self)

theorem length_foldl_set (entries : List (Nat × Nat)) (ranks : List Nat) :
    (entries.foldl (fun ranks entry => ranks.set entry.1 entry.2) ranks).length =
      ranks.length := by
  induction entries generalizing ranks with
  | nil => rfl
  | cons entry entries ih => rw [foldl_cons, ih, length_set]

/-- The rank recorded for an element of an order is its last position there. -/
theorem rank_eq_length {front back : List Nat} {i n unset d : Nat} (hback : i ∉ back) (hi : i < n) :
    ((front ++ i :: back).zipIdx.foldl (fun ranks entry => ranks.set entry.1 entry.2)
      (List.replicate n unset)).getD i d = front.length := by
  rw [zipIdx_append, foldl_append, zipIdx_cons, foldl_cons,
    getD_foldl_set_of_notMem hback,
    getD_set_self _ _ _ (by rw [length_foldl_set]; simpa using hi)]
  simp

theorem getElem?_rank {order : List Nat} {i n unset d : Nat} (hmem : i ∈ order) (hi : i < n) :
    order[(order.zipIdx.foldl (fun ranks entry => ranks.set entry.1 entry.2)
      (List.replicate n unset)).getD i d]? = some i := by
  obtain ⟨back, front, hsplit, hback⟩ := eq_append_cons_of_mem (mem_reverse.mpr hmem)
  obtain rfl : order = front.reverse ++ i :: back.reverse := by
    rw [← reverse_reverse order, hsplit]
    simp
  rw [rank_eq_length (by rwa [mem_reverse]) hi]
  simp

/-! ### Counters -/

/-- Adds one to an entry of a table of counters. -/
def increment (counters : List Nat) (i : Nat) : List Nat :=
  counters.set i (counters.getD i 0 + 1)

@[simp] theorem length_increment (counters : List Nat) (i : Nat) :
    (increment counters i).length = counters.length := by
  simp [increment]

theorem getD_increment (counters : List Nat) {i : Nat} (j : Nat) (h : i < counters.length) :
    (increment counters i).getD j 0 = counters.getD j 0 + if i = j then 1 else 0 := by
  rw [increment, getD_set]
  by_cases hij : i = j
  · subst hij; simp [h]
  · simp [hij]

/-! ### Rows -/

variable {α : Type}

/-- The values of one row, in the order of the entries. -/
def row (entries : List (Nat × α)) (r : Nat) : List α :=
  (entries.filter (fun entry => entry.1 = r)).map (·.2)

@[simp] theorem row_nil (r : Nat) : row ([] : List (Nat × α)) r = [] := rfl

theorem row_append (front back : List (Nat × α)) (r : Nat) :
    row (front ++ back) r = row front r ++ row back r := by
  simp [row]

theorem row_singleton (entry : Nat × α) (r : Nat) :
    row [entry] r = if entry.1 = r then [entry.2] else [] := by
  by_cases h : entry.1 = r <;> simp [row, h]

theorem mem_row {entries : List (Nat × α)} {r : Nat} {a : α} :
    a ∈ row entries r ↔ (r, a) ∈ entries := by
  simp only [row, mem_map, mem_filter, decide_eq_true_eq]
  constructor
  · rintro ⟨⟨q, b⟩, ⟨hmem, rfl⟩, rfl⟩
    exact hmem
  · intro hmem
    exact ⟨(r, a), ⟨hmem, rfl⟩, rfl⟩

/-- The number of entries of each row, shifted by one place. -/
def countRows (rows : Nat) (entries : List (Nat × α)) : List Nat :=
  entries.foldl (fun counts entry => increment counts (entry.1 + 1)) (List.replicate (rows + 1) 0)

def runningSums : Nat → List Nat → List Nat
  | _, [] => []
  | total, count :: counts => (total + count) :: runningSums (total + count) counts

def rowOffsets (rows : Nat) (entries : List (Nat × α)) : List Nat :=
  runningSums 0 (countRows rows entries)

/-- Places one entry at the cursor of its row and advances the cursor. -/
def placeEntry (state : List Nat × List α) (entry : Nat × α) : List Nat × List α :=
  (increment state.1 entry.1, state.2.set (state.1.getD entry.1 0) entry.2)

def fillRows (unset : α) (rows : Nat) (offsets : List Nat) (entries : List (Nat × α)) : List α :=
  (entries.foldl placeEntry
    (offsets.take rows, List.replicate (offsets.getD rows 0) unset)).2

/-- The slice of one row. -/
def rowSlice (offsets : List Nat) (values : List α) (r : Nat) : List α :=
  (values.drop (offsets.getD r 0)).take (offsets.getD (r + 1) 0 - offsets.getD r 0)

/-! ### Offsets -/

theorem length_foldl_increment {β : Type} (f : β → Nat) (bs : List β) (counts : List Nat) :
    (bs.foldl (fun counts b => increment counts (f b)) counts).length = counts.length := by
  induction bs generalizing counts with
  | nil => rfl
  | cons b bs ih => rw [foldl_cons, ih, length_increment]

theorem getD_foldl_increment {β : Type} (f : β → Nat) (bs : List β) (counts : List Nat) (j : Nat)
    (h : ∀ b ∈ bs, f b < counts.length) :
    (bs.foldl (fun counts b => increment counts (f b)) counts).getD j 0 =
      counts.getD j 0 + bs.countP (fun b => f b = j) := by
  induction bs generalizing counts with
  | nil => simp
  | cons b bs ih =>
    have hb : f b < counts.length := h b mem_cons_self
    rw [foldl_cons, ih _ (fun c hc => by
      rw [length_increment]; exact h c (mem_cons_of_mem _ hc)),
      getD_increment _ _ hb, countP_cons]
    by_cases hj : f b = j <;> simp [hj]; omega

theorem length_row (entries : List (Nat × α)) (r : Nat) :
    (row entries r).length = entries.countP (fun entry => entry.1 = r) := by
  simp [row, countP_eq_length_filter]

theorem length_countRows (rows : Nat) (entries : List (Nat × α)) :
    (countRows rows entries).length = rows + 1 := by
  rw [countRows, length_foldl_increment, length_replicate]

theorem length_runningSums (total : Nat) (counts : List Nat) :
    (runningSums total counts).length = counts.length := by
  induction counts generalizing total with
  | nil => rfl
  | cons count counts ih => simp [runningSums, ih]

theorem getD_runningSums_succ (total : Nat) (counts : List Nat) {r : Nat}
    (h : r + 1 < counts.length) :
    (runningSums total counts).getD (r + 1) 0 =
      (runningSums total counts).getD r 0 + counts.getD (r + 1) 0 := by
  induction counts generalizing total r with
  | nil => simp at h
  | cons count counts ih =>
    have hr : r < counts.length := by simpa using h
    cases r with
    | zero =>
      obtain ⟨next, rest, rfl⟩ : ∃ next rest, counts = next :: rest := by
        cases counts with
        | nil => simp at hr
        | cons next rest => exact ⟨next, rest, rfl⟩
      simp [runningSums]
    | succ r =>
      have := ih (total + count) hr
      simpa [runningSums] using this

theorem length_rowOffsets (rows : Nat) (entries : List (Nat × α)) :
    (rowOffsets rows entries).length = rows + 1 := by
  rw [rowOffsets, length_runningSums, length_countRows]

section

variable {rows : Nat} {entries : List (Nat × α)} (h : ∀ entry ∈ entries, entry.1 < rows)

include h

theorem getD_countRows (r : Nat) :
    (countRows rows entries).getD (r + 1) 0 = (row entries r).length := by
  rw [countRows, getD_foldl_increment _ _ _ _ (fun entry hentry => by
    have := h entry hentry
    rw [length_replicate]; omega), length_row]
  simp [getD_eq_getElem?_getD, getElem?_replicate]
  split <;> rfl

theorem getD_rowOffsets_succ {r : Nat} (hr : r < rows) :
    (rowOffsets rows entries).getD (r + 1) 0 =
      (rowOffsets rows entries).getD r 0 + (row entries r).length := by
  rw [rowOffsets, getD_runningSums_succ _ _ (by rw [length_countRows]; omega), getD_countRows h]

theorem getD_rowOffsets_mono {r s : Nat} (hrs : r ≤ s) (hs : s ≤ rows) :
    (rowOffsets rows entries).getD r 0 ≤ (rowOffsets rows entries).getD s 0 := by
  induction s with
  | zero => exact Nat.le_of_eq (by rw [Nat.le_zero.mp hrs])
  | succ s ih =>
    rcases Nat.eq_or_lt_of_le hrs with rfl | hlt
    · exact Nat.le_refl _
    · rw [getD_rowOffsets_succ h hs]
      omega

/-! ### Filling the rows -/

/-- The state of the fill after the entries `done`: each cursor stands after the
    part of its row that is placed, and that part is in place. -/
structure Filled (rows : Nat) (offset : Nat → Nat) (done : List (Nat × α))
    (state : List Nat × List α) : Prop where
  cursorCount : state.1.length = rows
  valueCount : state.2.length = offset rows
  cursor : ∀ r < rows, state.1.getD r 0 = offset r + (row done r).length
  value : ∀ r < rows, ∀ k < (row done r).length, state.2[offset r + k]? = (row done r)[k]?

theorem Filled.place {done : List (Nat × α)} {entry : Nat × α} {rest : List (Nat × α)}
    (hsplit : entries = done ++ entry :: rest) {state : List Nat × List α}
    (filled : Filled rows (fun r => (rowOffsets rows entries).getD r 0) done state) :
    Filled rows (fun r => (rowOffsets rows entries).getD r 0) (done ++ [entry])
      (placeEntry state entry) := by
  obtain ⟨q, a⟩ := entry
  have hq : q < rows := h (q, a) (by rw [hsplit]; simp)
  have hrow : row entries q = row done q ++ a :: row rest q := by
    rw [hsplit, ← singleton_append, row_append, row_append, row_singleton]
    simp
  have hspace : (rowOffsets rows entries).getD q 0 + (row done q).length <
      (rowOffsets rows entries).getD (q + 1) 0 := by
    rw [getD_rowOffsets_succ h hq, hrow, length_append, length_cons]
    omega
  have htotal := getD_rowOffsets_mono h (show q + 1 ≤ rows from hq) (Nat.le_refl rows)
  have hcursor := filled.cursor q hq
  refine ⟨?_, ?_, ?_, ?_⟩
  · rw [placeEntry, length_increment]; exact filled.cursorCount
  · rw [placeEntry, length_set]; exact filled.valueCount
  · intro r hr
    rw [placeEntry, getD_increment _ _ (by rw [filled.cursorCount]; exact hq), filled.cursor r hr,
      row_append, row_singleton, length_append]
    by_cases hqr : q = r <;> simp [hqr]; omega
  · intro r hr k hk
    have hlength := filled.valueCount
    simp only [placeEntry, getElem?_set, hcursor, row_append, row_singleton]
    by_cases hqr : q = r
    · subst hqr
      by_cases hlast : k = (row done q).length
      · subst hlast
        have hin : (rowOffsets rows entries).getD q 0 + (row done q).length < state.2.length := by
          rw [hlength]; omega
        rw [if_pos rfl, if_pos hin]
        simp
      · have hold : k < (row done q).length := by
          simp only [row_append, row_singleton, length_append] at hk
          simp at hk
          omega
        rw [if_neg (by omega), filled.value q hr k hold, getElem?_append_left hold]
    · have hold : k < (row done r).length := by
        simpa [row_append, row_singleton, hqr] using hk
      have hend : (row done r).length ≤ (row entries r).length := by
        rw [hsplit, row_append, length_append]; omega
      have hnext := getD_rowOffsets_succ h hr
      -- the two rows occupy disjoint ranges
      have hne : (rowOffsets rows entries).getD q 0 + (row done q).length ≠
          (rowOffsets rows entries).getD r 0 + k := by
        rcases Nat.lt_or_gt_of_ne hqr with hlt | hgt
        · have := getD_rowOffsets_mono h (show q + 1 ≤ r from hlt) (Nat.le_of_lt hr)
          omega
        · have := getD_rowOffsets_mono h (show r + 1 ≤ q from hgt) (Nat.le_of_lt hq)
          omega
      rw [if_neg hne, filled.value r hr k hold]
      simp [hqr]

theorem Filled.place_all {done rest : List (Nat × α)} (hsplit : entries = done ++ rest)
    {state : List Nat × List α}
    (filled : Filled rows (fun r => (rowOffsets rows entries).getD r 0) done state) :
    Filled rows (fun r => (rowOffsets rows entries).getD r 0) entries
      (rest.foldl placeEntry state) := by
  induction rest generalizing done state with
  | nil =>
    rw [append_nil] at hsplit
    rw [hsplit] at filled ⊢
    exact filled
  | cons entry rest ih =>
    exact ih (by rw [hsplit]; simp) (filled.place h hsplit)

/-- The slice between two offsets is the row. -/
theorem rowSlice_fillRows (unset : α) {r : Nat} (hr : r < rows) :
    rowSlice (rowOffsets rows entries)
      (fillRows unset rows (rowOffsets rows entries) entries) r = row entries r := by
  have hstart : Filled rows (fun r => (rowOffsets rows entries).getD r 0) ([] : List (Nat × α))
      ((rowOffsets rows entries).take rows,
        List.replicate ((rowOffsets rows entries).getD rows 0) unset) := by
    refine ⟨?_, ?_, ?_, ?_⟩
    · rw [length_take, length_rowOffsets]; omega
    · rw [length_replicate]
    · intro r hr
      simp [getD_eq_getElem?_getD, hr]
    · intro r _ k hk
      simp at hk
  have hfilled := Filled.place_all h (nil_append entries).symm hstart
  have hnext := getD_rowOffsets_succ h hr
  have hwidth : (rowOffsets rows entries).getD (r + 1) 0 - (rowOffsets rows entries).getD r 0 =
      (row entries r).length := by omega
  rw [rowSlice, hwidth]
  refine ext_getElem? fun k => ?_
  rw [getElem?_take, getElem?_drop]
  by_cases hk : k < (row entries r).length
  · rw [if_pos hk]
    exact hfilled.value r hr k hk
  · rw [if_neg hk, getElem?_eq_none (Nat.le_of_not_lt hk)]

end

end Fe2o3.Lib
