/-
What success says.

Readings, writings and compilations are sequences of steps that may fail.  A sequence that succeeds
has succeeded at each step, and a fold over a list keeps whatever each of its steps keeps.  These
few laws open such sequences one step at a time.
-/
import Mathlib.Data.List.Basic

namespace TypedRecords

section

variable {ε ε' α β : Type}

/-- A sequence succeeds when its first step does and the rest does from there. -/
theorem bind_eq_ok {x : Except ε α} {f : α → Except ε β} {b : β} :
    (x >>= f) = .ok b ↔ ∃ a, x = .ok a ∧ f a = .ok b := by
  cases x with
  | error e => simp [bind, Except.bind]
  | ok a => simp [bind, Except.bind]

theorem map_eq_ok {x : Except ε α} {f : α → β} {b : β} :
    (f <$> x) = .ok b ↔ ∃ a, x = .ok a ∧ f a = b := by
  cases x with
  | error e => simp [Functor.map, Except.map]
  | ok a => simp [Functor.map, Except.map]

/-- A sequence fails when its first step does, or when that succeeds and the rest fails. -/
theorem bind_eq_error {x : Except ε α} {f : α → Except ε β} {e : ε} :
    (x >>= f) = .error e ↔ x = .error e ∨ ∃ a, x = .ok a ∧ f a = .error e := by
  cases x with
  | error e => simp [bind, Except.bind]
  | ok a => simp [bind, Except.bind]

theorem map_eq_error {x : Except ε α} {f : α → β} {e : ε} :
    (f <$> x) = .error e ↔ x = .error e := by
  cases x with
  | error e => simp [Functor.map, Except.map]
  | ok a => simp [Functor.map, Except.map]

/-- A reworded error is still an error. -/
theorem mapError_eq_ok {x : Except ε α} {f : ε → ε'} {a : α} :
    x.mapError f = .ok a ↔ x = .ok a := by
  cases x with
  | error e => simp [Except.mapError]
  | ok a => simp [Except.mapError]

end

/-! ### Lists gone through member by member -/

section

variable {ε α β : Type} {f : α → Except ε β}

/-- Going through a list succeeds when it does for each member. -/
theorem exists_mapM_eq_ok_iff {xs : List α} :
    (∃ ys, xs.mapM f = .ok ys) ↔ ∀ x ∈ xs, ∃ y, f x = .ok y := by
  induction xs with
  | nil => exact ⟨fun _ => by simp, fun _ => ⟨[], rfl⟩⟩
  | cons x rest ih =>
      rw [List.forall_mem_cons, ← ih, List.mapM_cons]
      constructor
      · rintro ⟨ys, h⟩
        obtain ⟨y, hy, h⟩ := bind_eq_ok.mp h
        obtain ⟨zs, hzs, -⟩ := bind_eq_ok.mp h
        exact ⟨⟨y, hy⟩, zs, hzs⟩
      · rintro ⟨⟨y, hy⟩, zs, hzs⟩
        exact ⟨y :: zs, bind_eq_ok.mpr ⟨y, hy, bind_eq_ok.mpr ⟨zs, hzs, rfl⟩⟩⟩

/-- Going through a list fails as it does for the first member that fails. -/
theorem mapM_eq_error_iff {e : ε} : ∀ {xs : List α},
    xs.mapM f = .error e ↔ ∃ before x after, xs = before ++ x :: after ∧
      (∀ y ∈ before, ∃ b, f y = .ok b) ∧ f x = .error e := by
  intro xs
  induction xs with
  | nil =>
      constructor
      · intro h
        cases h
      · rintro ⟨before, x, after, h, -⟩
        simp at h
  | cons x rest ih =>
      rw [List.mapM_cons, bind_eq_error]
      constructor
      · rintro (hx | ⟨b, hb, h⟩)
        · exact ⟨[], x, rest, rfl, by simp, hx⟩
        · obtain ⟨before, y, after, rfl, hbefore, hy⟩ := ih.mp (map_eq_error.mp h)
          exact ⟨x :: before, y, after, rfl, List.forall_mem_cons.mpr ⟨⟨b, hb⟩, hbefore⟩, hy⟩
      · rintro ⟨before, y, after, hsplit, hbefore, hy⟩
        cases before with
        | nil =>
            cases hsplit
            exact .inl hy
        | cons z before =>
            cases hsplit
            obtain ⟨⟨b, hb⟩, hbefore⟩ := List.forall_mem_cons.mp hbefore
            exact .inr ⟨b, hb, map_eq_error.mpr (ih.mpr ⟨before, y, after, rfl, hbefore, hy⟩)⟩

end

/-! ### Folds that may fail -/

section

variable {ε α β : Type} {f : β → α → Except ε β}

theorem foldlM_cons_eq_ok {x : α} {xs : List α} {b d : β} :
    (x :: xs).foldlM f b = .ok d ↔ ∃ c, f b x = .ok c ∧ xs.foldlM f c = .ok d := by
  rw [List.foldlM_cons, bind_eq_ok]

theorem foldlM_append_eq_ok {xs ys : List α} {b d : β} :
    (xs ++ ys).foldlM f b = .ok d ↔ ∃ c, xs.foldlM f b = .ok c ∧ ys.foldlM f c = .ok d := by
  rw [List.foldlM_append, bind_eq_ok]

theorem foldlM_congr {g : β → α → Except ε β} : ∀ {xs : List α} {b : β},
    (∀ x ∈ xs, ∀ c, f c x = g c x) → xs.foldlM f b = xs.foldlM g b := by
  intro xs
  induction xs with
  | nil => intro b _; rfl
  | cons x rest ih =>
      intro b h
      rw [List.foldlM_cons, List.foldlM_cons, h x (by simp) b]
      cases g b x with
      | error e => rfl
      | ok c => exact ih fun y hy => h y (by simp [hy])

/-- A fold fails as its first step that fails does. -/
theorem foldlM_eq_error_iff {e : ε} : ∀ {xs : List α} {b : β},
    xs.foldlM f b = .error e ↔ ∃ before x after c, xs = before ++ x :: after ∧
      before.foldlM f b = .ok c ∧ f c x = .error e := by
  intro xs
  induction xs with
  | nil =>
      intro b
      constructor
      · intro h
        cases h
      · rintro ⟨before, x, after, c, h, -⟩
        simp at h
  | cons x rest ih =>
      intro b
      rw [List.foldlM_cons, bind_eq_error]
      constructor
      · rintro (hx | ⟨c, hc, h⟩)
        · exact ⟨[], x, rest, b, rfl, rfl, hx⟩
        · obtain ⟨before, y, after, d, rfl, hbefore, hy⟩ := ih.mp h
          exact ⟨x :: before, y, after, d, rfl, foldlM_cons_eq_ok.mpr ⟨c, hc, hbefore⟩, hy⟩
      · rintro ⟨before, y, after, d, hsplit, hbefore, hy⟩
        cases before with
        | nil =>
            cases hsplit
            cases hbefore
            exact .inl hy
        | cons z before =>
            cases hsplit
            obtain ⟨c, hc, hbefore⟩ := foldlM_cons_eq_ok.mp hbefore
            exact .inr ⟨c, hc, ih.mpr ⟨before, y, after, d, rfl, hbefore, hy⟩⟩

/-- A fold whose steps succeed or fail whatever came before succeeds when each step does. -/
theorem exists_foldlM_eq_ok_iff {P : α → Prop} (hstep : ∀ x b, (∃ c, f b x = .ok c) ↔ P x) :
    ∀ {xs : List α} {b : β}, (∃ d, xs.foldlM f b = .ok d) ↔ ∀ x ∈ xs, P x := by
  intro xs
  induction xs with
  | nil => exact fun {b} => ⟨fun _ => by simp, fun _ => ⟨b, rfl⟩⟩
  | cons x rest ih =>
      intro b
      rw [List.forall_mem_cons, ← hstep x b]
      constructor
      · rintro ⟨d, h⟩
        obtain ⟨c, hc, hrest⟩ := foldlM_cons_eq_ok.mp h
        exact ⟨⟨c, hc⟩, ih.mp ⟨d, hrest⟩⟩
      · rintro ⟨⟨c, hc⟩, hall⟩
        obtain ⟨d, hd⟩ := (ih (b := c)).mpr hall
        exact ⟨d, foldlM_cons_eq_ok.mpr ⟨c, hc, hd⟩⟩

/-- What every step keeps, the whole fold keeps. -/
theorem foldlM_keeps {P : β → Prop} : ∀ {xs : List α} {b d : β},
    (∀ x ∈ xs, ∀ c c', P c → f c x = .ok c' → P c') → P b → xs.foldlM f b = .ok d → P d := by
  intro xs
  induction xs with
  | nil =>
      intro b d _ hb h
      cases h
      exact hb
  | cons x rest ih =>
      intro b d hstep hb h
      obtain ⟨c, hc, hrest⟩ := foldlM_cons_eq_ok.mp h
      exact ih (fun y hy => hstep y (by simp [hy])) (hstep x (by simp) b c hb hc) hrest

end

/-! ### Two sequences side by side -/

/-- Two sequences fail with one error, or both succeed, with related results. -/
inductive Corresponds {ε α β : Type} (R : α → β → Prop) : Except ε α → Except ε β → Prop
  | error (e : ε) : Corresponds R (.error e) (.error e)
  | ok {a : α} {b : β} (h : R a b) : Corresponds R (.ok a) (.ok b)

namespace Corresponds

variable {ε α β γ δ : Type} {R : α → β → Prop} {Q : γ → δ → Prop} {x : Except ε α}
  {y : Except ε β}

theorem bind {f : α → Except ε γ} {g : β → Except ε δ} (h : Corresponds R x y)
    (hfg : ∀ a b, R a b → Corresponds Q (f a) (g b)) : Corresponds Q (x >>= f) (y >>= g) := by
  cases h with
  | error e => exact .error e
  | ok hab => exact hfg _ _ hab

theorem map {f : α → γ} {g : β → δ} (h : Corresponds R x y) (hfg : ∀ a b, R a b → Q (f a) (g b)) :
    Corresponds Q (f <$> x) (g <$> y) := by
  cases h with
  | error e => exact .error e
  | ok hab => exact .ok (hfg _ _ hab)

/-- More is true of the results when it is of those that the two sequences can have. -/
theorem strengthen {R' : α → β → Prop} (h : Corresponds R x y)
    (hR : ∀ a b, x = .ok a → y = .ok b → R a b → R' a b) : Corresponds R' x y := by
  cases h with
  | error e => exact .error e
  | ok hab => exact .ok (hR _ _ rfl rfl hab)

/-- Folds whose steps correspond do so as a whole. -/
theorem foldlM {σ τ : Type} {S : σ → τ → Prop} {f : α → σ → Except ε α} {g : β → τ → Except ε β}
    (hstep : ∀ a b s t, R a b → S s t → Corresponds R (f a s) (g b t)) {ss : List σ} {ts : List τ}
    (hsteps : List.Forall₂ S ss ts) :
    ∀ {a : α} {b : β}, R a b → Corresponds R (ss.foldlM f a) (ts.foldlM g b) := by
  induction hsteps with
  | nil => exact fun hab => .ok hab
  | cons hst _ ih =>
      intro a b hab
      rw [List.foldlM_cons, List.foldlM_cons]
      exact (hstep _ _ _ _ hab hst).bind fun _ _ h => ih h

end Corresponds

end TypedRecords
