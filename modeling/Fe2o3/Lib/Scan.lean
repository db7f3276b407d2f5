import Fe2o3.Lib.Outcome

/-!
# Scans

A fallible visitor goes through a list and may stop early.
-/

namespace Fe2o3.Lib

open List

variable {ε α β σ : Type}

/-- Visits the elements in order until the visitor says to stop. -/
def scan (visit : α → σ → Except ε (Bool × σ)) : List α → σ → Except ε (Bool × σ)
  | [], acc => .ok (false, acc)
  | x :: xs, acc => do
    let (stop, acc) ← visit x acc
    if stop then .ok (true, acc) else scan visit xs acc

variable {visit : α → σ → Except ε (Bool × σ)} {xs ys : List α} {acc last : σ} {stop : Bool}

theorem scan_singleton {x : α} : scan visit [x] acc = visit x acc := by
  unfold scan
  cases visit x acc with
  | error e => rfl
  | ok result =>
    obtain ⟨stop, last⟩ := result
    cases stop with
    | true => rfl
    | false => rfl

theorem scan_append_of_stop (h : scan visit xs acc = .ok (true, last)) :
    scan visit (xs ++ ys) acc = .ok (true, last) := by
  induction xs generalizing acc with
  | nil => nomatch h
  | cons x xs ih =>
    obtain ⟨⟨stop, next⟩, hvisit, hrest⟩ := bind_eq_ok.mp h
    refine bind_eq_ok.mpr ⟨(stop, next), hvisit, ?_⟩
    cases stop with
    | true => exact hrest
    | false => exact ih hrest

theorem scan_append_of_go (h : scan visit xs acc = .ok (false, last)) :
    scan visit (xs ++ ys) acc = scan visit ys last := by
  induction xs generalizing acc with
  | nil =>
    obtain ⟨-, rfl⟩ := Prod.mk.inj (Except.ok.inj h)
    rfl
  | cons x xs ih =>
    obtain ⟨⟨stop, next⟩, hvisit, hrest⟩ := bind_eq_ok.mp h
    rw [cons_append, scan, hvisit]
    cases stop with
    | true => nomatch hrest
    | false => exact ih hrest

/-- A scan that succeeds went through the whole list, or stopped at an element: what every visit
    keeps of the elements seen so far holds up to there. -/
theorem scan_cases (I : List α → σ → Prop) (hinit : I [] acc)
    (hstep : ∀ seen x rest before after, xs = seen ++ x :: rest → I seen before →
      visit x before = .ok (false, after) → I (seen ++ [x]) after)
    (h : scan visit xs acc = .ok (stop, last)) :
    stop = false ∧ I xs last ∨
      stop = true ∧ ∃ seen x rest before, xs = seen ++ x :: rest ∧ I seen before ∧
        visit x before = .ok (true, last) := by
  suffices hrest : ∀ rest seen acc, xs = seen ++ rest → I seen acc →
      scan visit rest acc = .ok (stop, last) →
      stop = false ∧ I xs last ∨ stop = true ∧ ∃ seen x rest before, xs = seen ++ x :: rest ∧
        I seen before ∧ visit x before = .ok (true, last) from hrest xs [] acc rfl hinit h
  intro rest
  induction rest with
  | nil =>
    intro seen acc hxs hI hscan
    obtain ⟨rfl, rfl⟩ := Prod.mk.inj (Except.ok.inj hscan)
    rw [append_nil] at hxs
    exact .inl ⟨rfl, hxs ▸ hI⟩
  | cons x rest ih =>
    intro seen acc hxs hI hscan
    obtain ⟨⟨stopped, next⟩, hvisit, hscan⟩ := bind_eq_ok.mp hscan
    cases stopped with
    | true =>
      obtain ⟨rfl, rfl⟩ := Prod.mk.inj (Except.ok.inj hscan)
      exact .inr ⟨rfl, seen, x, rest, acc, hxs, hI, hvisit⟩
    | false =>
      refine ih (seen ++ [x]) next ?_ (hstep seen x rest acc next hxs hI hvisit) hscan
      rw [hxs, append_assoc]
      rfl

/-- Looks for the first element that passes a test. -/
def probe (test : α → Except ε (Option β)) (x : α) (acc : Option β) :
    Except ε (Bool × Option β) := do
  match ← test x with
  | some found => .ok (true, some found)
  | none => .ok (false, acc)

/-- A search finds the first element that passes, or shows that none does. -/
theorem scan_probe {test : α → Except ε (Option β)} {found : Option β}
    (h : scan (probe test) xs none = .ok (stop, found)) :
    (found = none ∧ ∀ x ∈ xs, test x = .ok none) ∨
      ∃ seen x rest b, xs = seen ++ x :: rest ∧ (∀ y ∈ seen, test y = .ok none) ∧
        test x = .ok (some b) ∧ found = some b := by
  have hcases := scan_cases (fun seen acc => acc = none ∧ ∀ x ∈ seen, test x = .ok none)
    ⟨rfl, fun x hx => (nomatch hx)⟩ (by
      rintro seen x rest before after _ ⟨rfl, hseen⟩ hvisit
      obtain ⟨result, htest, hresult⟩ := bind_eq_ok.mp hvisit
      cases result with
      | some b => nomatch hresult
      | none =>
        obtain ⟨-, rfl⟩ := Prod.mk.inj (Except.ok.inj hresult)
        refine ⟨rfl, fun y hy => ?_⟩
        obtain hy | hy := mem_append.mp hy
        · exact hseen y hy
        · rw [mem_singleton.mp hy]
          exact htest) h
  obtain ⟨-, hnone, hall⟩ | ⟨-, seen, x, rest, before, hxs, ⟨rfl, hseen⟩, hvisit⟩ := hcases
  · exact .inl ⟨hnone, hall⟩
  · obtain ⟨result, htest, hresult⟩ := bind_eq_ok.mp hvisit
    cases result with
    | some b =>
      obtain ⟨-, rfl⟩ := Prod.mk.inj (Except.ok.inj hresult)
      exact .inr ⟨seen, x, rest, b, hxs, hseen, htest, rfl⟩
    | none => nomatch hresult

end Fe2o3.Lib
