import Mathlib

/-!
# Lists read as sequences in time

What stands before an element.  A predicate over all splits `front ++ a :: back` of a
list says what the elements of a sequence know about those before them.
-/

namespace Fe2o3.Lib

open List

variable {α β : Type}

/-- Where an element of a list with one element added stands. -/
theorem snoc_eq_append_cons {order front back : List α} {i j : α}
    (h : order ++ [i] = front ++ j :: back) :
    (order = front ∧ i = j) ∨ ∃ back', order = front ++ j :: back' := by
  rcases append_eq_append_iff.mp h with ⟨tail, hfront, htail⟩ | ⟨tail, horder, htail⟩
  · cases tail with
    | nil =>
      rw [append_nil] at hfront
      exact Or.inl ⟨hfront.symm, (List.cons.inj htail).1⟩
    | cons first tail => simp at htail
  · cases tail with
    | nil =>
      rw [append_nil] at horder
      exact Or.inl ⟨horder, (List.cons.inj htail).1.symm⟩
    | cons first tail =>
      rw [cons_append, List.cons.injEq] at htail
      exact Or.inr ⟨tail, by rw [horder, htail.1]⟩

variable {l : List α}

/-- A split of a filtered and mapped list comes from a split of the list itself. -/
theorem filterMap_split {f : α → Option β} {front back : List β} {b : β}
    (h : l.filterMap f = front ++ b :: back) :
    ∃ before a after, l = before ++ a :: after ∧ f a = some b ∧ before.filterMap f = front := by
  obtain ⟨before, rest, rfl, rfl, hrest⟩ := filterMap_eq_append_iff.mp h
  obtain ⟨skipped, a, after, rfl, hskipped, ha, -⟩ := filterMap_eq_cons_iff.mp hrest
  refine ⟨before ++ skipped, a, after, by simp, ha, ?_⟩
  rw [filterMap_append, filterMap_eq_nil_iff.mpr hskipped, append_nil]

theorem filter_split {p : α → Bool} {l front back : List α} {b : α}
    (h : l.filter p = front ++ b :: back) :
    ∃ before after, l = before ++ b :: after ∧ p b = true ∧ before.filter p = front := by
  rw [← filterMap_eq_filter] at h
  obtain ⟨before, a, after, hl, ha, hfront⟩ := filterMap_split h
  rw [filterMap_eq_filter] at hfront
  obtain ⟨hp, rfl⟩ : p a = true ∧ a = b := by simpa [Option.guard_eq_some_iff, and_comm] using ha
  exact ⟨before, after, hl, hp, hfront⟩

/-- The values of a partial function are distinct when the defined ones are and at most
    one is missing. -/
theorem nodup_map_of_filterMap [DecidableEq β] {f : α → Option β} (hsome : (l.filterMap f).Nodup)
    (hnone : l.countP (fun a => f a = none) ≤ 1) : (l.map f).Nodup := by
  induction l with
  | nil => exact nodup_nil
  | cons a l ih =>
    rw [map_cons, nodup_cons]
    cases ha : f a with
    | none =>
      rw [filterMap_cons_none ha] at hsome
      rw [countP_cons_of_pos (by simpa using ha)] at hnone
      refine ⟨fun hmem => ?_, ih hsome (by omega)⟩
      obtain ⟨b, hb, hfb⟩ := mem_map.mp hmem
      have hpos : 0 < l.countP (fun a => f a = none) :=
        countP_pos_iff.mpr ⟨b, hb, decide_eq_true hfb⟩
      omega
    | some b =>
      rw [filterMap_cons_some ha, nodup_cons] at hsome
      rw [countP_cons_of_neg (by simp [ha])] at hnone
      refine ⟨fun hmem => hsome.1 ?_, ih hsome.2 hnone⟩
      obtain ⟨c, hc, hfc⟩ := mem_map.mp hmem
      exact mem_filterMap.mpr ⟨c, hc, hfc⟩

theorem filterMap_range_getElem? (l : List α) : (List.range l.length).filterMap (l[·]?) = l := by
  induction l with
  | nil => rfl
  | cons a l ih =>
    rw [length_cons, range_succ_eq_map, filterMap_cons, filterMap_map]
    exact congrArg (a :: ·) ih

/-- In a list without repetition, an element is read only at its own position. -/
theorem mem_filterMap_getElem? (hdistinct : l.Nodup) {front : List Nat} {i : Nat} {a : α}
    (hi : l[i]? = some a) : a ∈ front.filterMap (l[·]?) ↔ i ∈ front := by
  rw [mem_filterMap]
  constructor
  · rintro ⟨j, hmem, hj⟩
    obtain ⟨hlt, rfl⟩ := List.getElem?_eq_some_iff.mp hj
    obtain ⟨hlt', heq⟩ := List.getElem?_eq_some_iff.mp hi
    rwa [hdistinct.getElem_inj_iff.mp heq]
  · exact fun hmem => ⟨i, hmem, hi⟩

/-- A chain in which every element names the one before it, and the first one `start`. -/
theorem isChain_naming_iff {names key : α → β} {start : β} :
    ((∀ first ∈ l.head?, names first = start) ∧ l.IsChain fun a b => names b = key a) ↔
      l.map names <+: start :: l.map key := by
  induction l generalizing start with
  | nil => simp
  | cons a l ih =>
    rw [isChain_cons, map_cons, map_cons, cons_prefix_cons, ← ih]
    simp

/-- Elements that name distinct earlier keys, or `start`, form such a chain: when all
    names but one are taken, the next element has only that one to name. -/
theorem map_names_of_nodup {names key : α → β} {start : β}
    (hnames : ∀ front a back, l = front ++ a :: back → names a ∈ start :: front.map key)
    (hdistinct : (l.map names).Nodup) : l.map names <+: start :: l.map key := by
  induction l using List.reverseRecOn with
  | nil => exact nil_prefix
  | append_singleton l a ih =>
    rw [map_append, map_singleton] at hdistinct ⊢
    obtain ⟨hbefore, -, hfresh⟩ := nodup_append.mp hdistinct
    obtain ⟨rest, hrest⟩ := ih (fun front b back hsplit =>
      hnames front b (back ++ [a]) (by rw [hsplit]; simp)) hbefore
    have hlength : rest.length = 1 := by
      have := congrArg List.length hrest
      simp only [length_append, length_cons, length_map] at this
      omega
    obtain ⟨last, rfl⟩ := length_eq_one_iff.mp hlength
    have hlast : names a = last := by
      have hmem := hnames l a [] rfl
      rw [← hrest, mem_append] at hmem
      exact hmem.elim (fun h => absurd rfl (hfresh _ h _ (by simp))) mem_singleton.mp
    rw [hlast, hrest, map_append, ← cons_append]
    exact prefix_append _ _

/-- A sequence that takes a least possible element at every point is least of all. -/
theorem le_of_greedy [LinearOrder α] {l other : List α} (hlength : l.length ≤ other.length)
    (h : ∀ front a b back back', l = front ++ a :: back → other = front ++ b :: back' → a ≤ b) :
    l ≤ other := by
  induction l generalizing other with
  | nil =>
    cases other with
    | nil => exact le_refl _
    | cons b other => exact le_of_lt List.Lex.nil
  | cons a l ih =>
    cases other with
    | nil => simp at hlength
    | cons b other =>
      obtain hlt | rfl := lt_or_eq_of_le (h [] a b l other rfl rfl)
      · exact le_of_lt (List.Lex.rel hlt)
      · refine cons_le_cons a (ih (by simpa using hlength) ?_)
        intro front c d back back' hl hother
        exact h (a :: front) c d back back' (by rw [hl]; rfl) (by rw [hother]; rfl)

end Fe2o3.Lib
