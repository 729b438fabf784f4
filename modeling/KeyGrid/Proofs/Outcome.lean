import Mathlib.Data.List.Forall2

/-!
# Runs that succeed and runs that fail

A computation that may fail succeeds exactly when each of its steps does, and otherwise
fails as its first failing step does. These lemmas take a run apart, for one step, for a
step per element of a list, and for the steps of a fold.
-/

namespace KeyGrid

variable {ε α β : Type}

theorem bind_eq_ok_iff {x : Except ε α} {f : α → Except ε β} {b : β} :
    x >>= f = .ok b ↔ ∃ a, x = .ok a ∧ f a = .ok b := by
  cases x with
  | error e =>
    constructor
    · intro h
      cases h
    · rintro ⟨a, h, _⟩
      cases h
  | ok a =>
    constructor
    · intro h
      exact ⟨a, rfl, h⟩
    · rintro ⟨_, ha, h⟩
      cases ha
      exact h

theorem map_eq_ok_iff {x : Except ε α} {f : α → β} {b : β} :
    x.map f = .ok b ↔ ∃ a, x = .ok a ∧ f a = b := by
  cases x <;> simp [Except.map]

theorem eq_ok_of_toOption {x : Except ε α} {a : α} (h : x.toOption = some a) : x = .ok a := by
  cases x with
  | error e => cases h
  | ok b => exact congrArg Except.ok (Option.some.inj h)

theorem mapM_eq_ok_iff {f : α → Except ε β} {xs : List α} {ys : List β} :
    xs.mapM f = .ok ys ↔ List.Forall₂ (fun x y => f x = .ok y) xs ys := by
  induction xs generalizing ys with
  | nil =>
    rw [List.mapM_nil, List.forall₂_nil_left_iff]
    constructor
    · intro h
      cases h
      rfl
    · rintro rfl
      rfl
  | cons x xs ih =>
    rw [List.mapM_cons, bind_eq_ok_iff, List.forall₂_cons_left_iff]
    constructor
    · rintro ⟨y, hy, h⟩
      obtain ⟨rest, hrest, h⟩ := bind_eq_ok_iff.mp h
      cases h
      exact ⟨y, rest, hy, ih.mp hrest, rfl⟩
    · rintro ⟨y, rest, hy, hrest, rfl⟩
      exact ⟨y, hy, bind_eq_ok_iff.mpr ⟨rest, ih.mpr hrest, rfl⟩⟩

theorem foldlM_concat_eq_ok_iff {f : β → α → Except ε β} {b c : β} {xs : List α} {x : α} :
    (xs ++ [x]).foldlM f b = .ok c ↔ ∃ m, xs.foldlM f b = .ok m ∧ f m x = .ok c := by
  rw [List.foldlM_append, bind_eq_ok_iff]
  constructor
  · rintro ⟨m, hm, h⟩
    obtain ⟨d, hd, h⟩ := bind_eq_ok_iff.mp h
    cases h
    exact ⟨m, hm, hd⟩
  · rintro ⟨m, hm, hc⟩
    exact ⟨m, hm, bind_eq_ok_iff.mpr ⟨c, hc, rfl⟩⟩

theorem foldlM_append_eq_ok_iff {f : β → α → Except ε β} {b c : β} {front back : List α} :
    (front ++ back).foldlM f b = .ok c ↔
      ∃ m, front.foldlM f b = .ok m ∧ back.foldlM f m = .ok c := by
  rw [List.foldlM_append, bind_eq_ok_iff]

/-- What every step leaves as it was, or takes further, a run does. -/
theorem foldlM_preserves {f : β → α → Except ε β} {R : β → β → Prop} (hrefl : ∀ b, R b b)
    (htrans : ∀ b m c, R b m → R m c → R b c) (hf : ∀ b x c, f b x = .ok c → R b c) {b c : β}
    {xs : List α} (h : xs.foldlM f b = .ok c) : R b c := by
  induction xs generalizing b with
  | nil =>
    cases h
    exact hrefl _
  | cons x xs ih =>
    obtain ⟨m, hm, h⟩ := bind_eq_ok_iff.mp h
    exact htrans b m c (hf b x m hm) (ih h)

/-- A fold comes to the same with steps that do the same wherever the first ones succeed. -/
theorem foldlM_mono {f g : β → α → Except ε β} (hfg : ∀ b x c, f b x = .ok c → g b x = .ok c)
    {b c : β} {xs : List α} (h : xs.foldlM f b = .ok c) : xs.foldlM g b = .ok c := by
  induction xs generalizing b with
  | nil => exact h
  | cons x xs ih =>
    obtain ⟨m, hm, h⟩ := bind_eq_ok_iff.mp h
    exact bind_eq_ok_iff.mpr ⟨m, hfg b x m hm, ih h⟩

/-! ### Whether a run succeeds -/

theorem exists_bind_iff {x : Except ε α} {f : α → Except ε β} :
    (∃ b, x >>= f = .ok b) ↔ ∃ a, x = .ok a ∧ ∃ b, f a = .ok b := by
  constructor
  · rintro ⟨b, h⟩
    obtain ⟨a, ha, hb⟩ := bind_eq_ok_iff.mp h
    exact ⟨a, ha, b, hb⟩
  · rintro ⟨a, ha, b, hb⟩
    exact ⟨b, bind_eq_ok_iff.mpr ⟨a, ha, hb⟩⟩

theorem exists_map_iff {x : Except ε α} {f : α → β} :
    (∃ b, x.map f = .ok b) ↔ ∃ a, x = .ok a := by
  cases x <;> simp [Except.map]

theorem exists_mapM_iff {f : α → Except ε β} {xs : List α} :
    (∃ ys, xs.mapM f = .ok ys) ↔ ∀ x ∈ xs, ∃ y, f x = .ok y := by
  induction xs with
  | nil => simp [pure, Except.pure]
  | cons x xs ih =>
    rw [List.mapM_cons, exists_bind_iff, List.forall_mem_cons, ← ih]
    constructor
    · rintro ⟨y, hy, h⟩
      obtain ⟨ys, hys, _⟩ := exists_bind_iff.mp h
      exact ⟨⟨y, hy⟩, ys, hys⟩
    · rintro ⟨⟨y, hy⟩, ys, hys⟩
      exact ⟨y, hy, exists_bind_iff.mpr ⟨ys, hys, _, rfl⟩⟩

/-- Where it does not matter what a fold has come to, each of its steps succeeds or fails
by itself. -/
theorem exists_foldlM_iff {f : β → α → Except ε β} {P : α → Prop}
    (hf : ∀ b x, (∃ c, f b x = .ok c) ↔ P x) {b : β} {xs : List α} :
    (∃ c, xs.foldlM f b = .ok c) ↔ ∀ x ∈ xs, P x := by
  induction xs generalizing b with
  | nil => simp [pure, Except.pure]
  | cons x xs ih =>
    rw [List.foldlM_cons, exists_bind_iff, List.forall_mem_cons, ← hf b x]
    constructor
    · rintro ⟨c, hc, h⟩
      exact ⟨⟨c, hc⟩, ih.mp h⟩
    · rintro ⟨⟨c, hc⟩, h⟩
      exact ⟨c, hc, ih.mpr h⟩

/-! ### Failures -/

theorem bind_eq_error_iff {x : Except ε α} {f : α → Except ε β} {e : ε} :
    x >>= f = .error e ↔ x = .error e ∨ ∃ a, x = .ok a ∧ f a = .error e := by
  cases x with
  | error other =>
    constructor
    · intro h
      cases h
      exact Or.inl rfl
    · rintro (h | ⟨a, h, _⟩)
      · cases h
        rfl
      · cases h
  | ok a =>
    constructor
    · intro h
      exact Or.inr ⟨a, rfl, h⟩
    · rintro (h | ⟨_, ha, h⟩)
      · cases h
      · cases ha
        exact h

theorem map_eq_error_iff {x : Except ε α} {f : α → β} {e : ε} :
    x.map f = .error e ↔ x = .error e := by
  cases x <;> simp [Except.map]

theorem mapM_eq_error {f : α → Except ε β} {xs : List α} {e : ε} (h : xs.mapM f = .error e) :
    ∃ x ∈ xs, f x = .error e := by
  induction xs with
  | nil => cases h
  | cons x xs ih =>
    rw [List.mapM_cons] at h
    rcases bind_eq_error_iff.mp h with h | ⟨_, _, h⟩
    · exact ⟨x, List.mem_cons_self .., h⟩
    · rcases bind_eq_error_iff.mp h with h | ⟨_, _, h⟩
      · obtain ⟨y, hy, hfails⟩ := ih h
        exact ⟨y, List.mem_cons_of_mem _ hy, hfails⟩
      · cases h

theorem foldlM_append_eq_error_iff {f : β → α → Except ε β} {b : β} {front back : List α}
    {e : ε} :
    (front ++ back).foldlM f b = .error e ↔
      front.foldlM f b = .error e ∨
        ∃ m, front.foldlM f b = .ok m ∧ back.foldlM f m = .error e := by
  rw [List.foldlM_append, bind_eq_error_iff]

/-- A fold fails at one element, which it reaches through those in front. -/
theorem foldlM_eq_error {f : β → α → Except ε β} {b : β} {xs : List α} {e : ε}
    (h : xs.foldlM f b = .error e) :
    ∃ front x back m, xs = front ++ x :: back ∧ front.foldlM f b = .ok m ∧
      f m x = .error e := by
  induction xs generalizing b with
  | nil => cases h
  | cons x xs ih =>
    rw [List.foldlM_cons] at h
    rcases bind_eq_error_iff.mp h with h | ⟨c, hc, h⟩
    · exact ⟨[], x, xs, b, rfl, rfl, h⟩
    · obtain ⟨front, y, back, m, rfl, hm, hfails⟩ := ih h
      refine ⟨x :: front, y, back, m, rfl, ?_, hfails⟩
      rw [List.foldlM_cons]
      exact bind_eq_ok_iff.mpr ⟨c, hc, hm⟩

end KeyGrid
