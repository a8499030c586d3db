import Mathlib.Data.List.Forall2
import Mathlib.Data.List.Induction
import Mathlib.Data.List.Nodup

namespace WireModel.Outcome

variable {ε ε' α β : Type}

theorem not_succeeds {x : Except ε α} {e : ε} (h : x = .error e) : ¬∃ a, x = .ok a := by
  intro h
  obtain ⟨a, ha⟩ := h
  rw [h] at ha
  cases ha

theorem bind_eq_ok_iff {x : Except ε α} {f : α → Except ε β} {b : β} :
    (x >>= f) = .ok b ↔ ∃ a, x = .ok a ∧ f a = .ok b := by
  cases x with
  | error e => simp [bind, Except.bind]
  | ok a => simp [bind, Except.bind]

theorem bind_eq_error_iff {x : Except ε α} {f : α → Except ε β} {e : ε} :
    (x >>= f) = .error e ↔ x = .error e ∨ ∃ a, x = .ok a ∧ f a = .error e := by
  cases x with
  | error e => simp [bind, Except.bind]
  | ok a => simp [bind, Except.bind]

theorem mapError_eq_ok_iff {x : Except ε α} {f : ε → ε'} {a : α} :
    x.mapError f = .ok a ↔ x = .ok a := by
  cases x <;> simp [Except.mapError]

theorem mapError_eq_error_iff {x : Except ε α} {f : ε → ε'} {e' : ε'} :
    x.mapError f = .error e' ↔ ∃ e, x = .error e ∧ f e = e' := by
  cases x <;> simp [Except.mapError]

theorem pure_eq_ok_iff {a b : α} : (pure a : Except ε α) = .ok b ↔ b = a := by
  simp [pure, Except.pure, eq_comm]

theorem pure_ne_error {a : α} {e : ε} : (pure a : Except ε α) ≠ .error e := by
  simp [pure, Except.pure]

/-- Whether a computation succeeds and, if not, why. -/
def verdict (x : Except ε α) : Except ε Unit :=
  x.map fun _ => ()

theorem verdict_eq_ok_iff {x : Except ε α} : verdict x = .ok () ↔ ∃ a, x = .ok a := by
  cases x <;> simp [verdict, Except.map]

theorem verdict_eq_error_iff {x : Except ε α} {e : ε} : verdict x = .error e ↔ x = .error e := by
  cases x <;> simp [verdict, Except.map]

theorem succeeds_bind_pure_iff {x : Except ε α} {g : α → β} :
    (∃ b, (x >>= fun a => pure (g a)) = .ok b) ↔ ∃ a, x = .ok a := by
  cases x <;> simp [bind, Except.bind, pure, Except.pure]

theorem bind_pure_eq_error_iff {x : Except ε α} {g : α → β} {e : ε} :
    (x >>= fun a => pure (g a)) = .error e ↔ x = .error e := by
  cases x <;> simp [bind, Except.bind, pure, Except.pure]

theorem verdict_bind_congr {α' β' : Type} {x : Except ε α} {x' : Except ε α'}
    {g : α → Except ε β} {g' : α' → Except ε β'} (hx : verdict x = verdict x')
    (hg : ∀ a a', verdict (g a) = verdict (g' a')) :
    verdict (x >>= g) = verdict (x' >>= g') := by
  cases x with
  | error e => rw [verdict_eq_error_iff.1 hx.symm]; rfl
  | ok a =>
    obtain ⟨a', rfl⟩ := verdict_eq_ok_iff.1 hx.symm
    exact hg a a'

theorem verdict_eq_verdict_iff {α' : Type} {x : Except ε α} {x' : Except ε α'} :
    verdict x = verdict x' ↔ ∀ e, x = .error e ↔ x' = .error e := by
  refine ⟨?_, ?_⟩
  · intro h e
    rw [← verdict_eq_error_iff, h, verdict_eq_error_iff]
  · intro h
    cases x with
    | error e => rw [(h e).1 rfl]; rfl
    | ok a =>
      cases x' with
      | error e => exact absurd ((h e).2 rfl) (by simp)
      | ok a' => rfl

theorem verdict_bind_right {β' : Type} {x : Except ε α} {g : α → Except ε β}
    {g' : α → Except ε β'} (hg : ∀ a, verdict (g a) = verdict (g' a)) :
    verdict (x >>= g) = verdict (x >>= g') := by
  cases x with
  | error e => rfl
  | ok a => exact hg a

theorem verdict_bind_pure {x : Except ε α} {g : α → β} :
    verdict (x >>= fun a => pure (g a)) = verdict x := by
  cases x <;> rfl

/-- A list is mapped exactly when each element is, to the result in its place. -/
theorem mapM_eq_ok_iff {f : α → Except ε β} {xs : List α} {ys : List β} :
    xs.mapM f = .ok ys ↔ List.Forall₂ (fun x y => f x = .ok y) xs ys := by
  induction xs generalizing ys with
  | nil =>
    rw [List.mapM_nil, pure_eq_ok_iff, List.forall₂_nil_left_iff]
  | cons x xs ih =>
    rw [List.mapM_cons, bind_eq_ok_iff, List.forall₂_cons_left_iff]
    refine ⟨?_, ?_⟩
    · intro h
      obtain ⟨y, hy, h⟩ := h
      obtain ⟨zs, hzs, h⟩ := bind_eq_ok_iff.1 h
      exact ⟨y, zs, hy, ih.1 hzs, pure_eq_ok_iff.1 h⟩
    · intro h
      obtain ⟨y, zs, hy, hzs, rfl⟩ := h
      exact ⟨y, hy, bind_eq_ok_iff.2 ⟨zs, ih.2 hzs, rfl⟩⟩

theorem exists_result {f : α → Except ε β} {xs : List α} {ys : List β}
    (h : xs.mapM f = .ok ys) {x : α} (hx : x ∈ xs) : ∃ y ∈ ys, f x = .ok y := by
  have hf := mapM_eq_ok_iff.1 h
  clear h
  induction hf with
  | nil => cases hx
  | cons hxy _ ih =>
    rcases List.mem_cons.1 hx with rfl | hx
    · exact ⟨_, List.mem_cons_self, hxy⟩
    · obtain ⟨y, hy, hxy⟩ := ih hx
      exact ⟨y, List.mem_cons_of_mem _ hy, hxy⟩

theorem exists_source {f : α → Except ε β} {xs : List α} {ys : List β}
    (h : xs.mapM f = .ok ys) {y : β} (hy : y ∈ ys) : ∃ x ∈ xs, f x = .ok y := by
  have hf := mapM_eq_ok_iff.1 h
  clear h
  induction hf with
  | nil => cases hy
  | cons hxy _ ih =>
    rcases List.mem_cons.1 hy with rfl | hy
    · exact ⟨_, List.mem_cons_self, hxy⟩
    · obtain ⟨x, hx, hxy⟩ := ih hy
      exact ⟨x, List.mem_cons_of_mem _ hx, hxy⟩

/-- As far as success goes, mapping a list is checking its elements one after another. -/
theorem verdict_mapM (f : α → Except ε β) (xs : List α) :
    verdict (xs.mapM f) = xs.forM fun x => verdict (f x) := by
  induction xs with
  | nil => rfl
  | cons x xs ih =>
    rw [List.mapM_cons, List.forM_eq_forM, List.forM_cons, ← List.forM_eq_forM, ← ih]
    cases f x with
    | error e => rfl
    | ok y => cases xs.mapM f <;> rfl

theorem verdict_mapM_congr {β' : Type} {f : α → Except ε β} {f' : α → Except ε β'} {xs : List α}
    (h : ∀ x, verdict (f x) = verdict (f' x)) : verdict (xs.mapM f) = verdict (xs.mapM f') := by
  rw [verdict_mapM, verdict_mapM, funext h]

theorem map_mapM {γ : Type} (f : α → Except ε β) (h : β → γ) (xs : List α) :
    (xs.mapM f).map (List.map h) = xs.mapM fun x => (f x).map h := by
  induction xs with
  | nil => rfl
  | cons x xs ih =>
    rw [List.mapM_cons, List.mapM_cons, ← ih]
    cases f x with
    | error e => rfl
    | ok y => cases xs.mapM f <;> rfl

theorem map_map {γ : Type} {x : Except ε α} {g : α → β} {h : β → γ} :
    (x.map g).map h = x.map fun a => h (g a) := by
  cases x <;> rfl

theorem bind_pure_eq_map {x : Except ε α} {g : α → β} : (x >>= fun a => pure (g a)) = x.map g := by
  cases x <;> rfl

theorem eq_of_map_eq_map {x y : Except ε α} {h : α → β} (hxy : x.map h = y.map h) {a b : α}
    (hx : x = .ok a) (hy : y = .ok b) : h a = h b := by
  rw [hx, hy] at hxy
  exact Except.ok.inj hxy

theorem forM_eq_ok_iff {f : α → Except ε Unit} {xs : List α} :
    xs.forM f = .ok () ↔ ∀ x ∈ xs, f x = .ok () := by
  induction xs with
  | nil => simp [pure_eq_ok_iff]
  | cons x xs ih =>
    rw [List.forM_eq_forM, List.forM_cons, bind_eq_ok_iff, List.forall_mem_cons, ← ih]
    exact ⟨fun ⟨_, hx, h⟩ => ⟨hx, h⟩, fun ⟨hx, h⟩ => ⟨(), hx, h⟩⟩

/-- A check of a list fails at the first element that fails, for that element's reason. -/
theorem forM_eq_error {f : α → Except ε Unit} {xs : List α} {e : ε} (h : xs.forM f = .error e) :
    ∃ before x after, xs = before ++ x :: after ∧ (∀ y ∈ before, f y = .ok ()) ∧
      f x = .error e := by
  induction xs with
  | nil => exact (pure_ne_error h).elim
  | cons x xs ih =>
    rw [List.forM_eq_forM, List.forM_cons, bind_eq_error_iff] at h
    rcases h with h | ⟨_, hx, h⟩
    · exact ⟨[], x, xs, rfl, by simp, h⟩
    · obtain ⟨before, y, after, rfl, hb, he⟩ := ih h
      exact ⟨x :: before, y, after, rfl, List.forall_mem_cons.2 ⟨hx, hb⟩, he⟩

theorem forM_eq_error_iff {f : α → Except ε Unit} {xs : List α} {e : ε} :
    xs.forM f = .error e ↔ ∃ before x after, xs = before ++ x :: after ∧
      (∀ y ∈ before, f y = .ok ()) ∧ f x = .error e := by
  refine ⟨forM_eq_error, ?_⟩
  rintro ⟨before, x, after, rfl, hb, hx⟩
  induction before with
  | nil =>
    rw [List.nil_append, List.forM_eq_forM, List.forM_cons, hx]
    rfl
  | cons y before ih =>
    obtain ⟨hy, hb⟩ := List.forall_mem_cons.1 hb
    rw [List.cons_append, List.forM_eq_forM, List.forM_cons, hy]
    exact ih hb

theorem forM_flatMap (h : α → List β) (f : β → Except ε Unit) (xs : List α) :
    (xs.flatMap h).forM f = xs.forM fun x => (h x).forM f := by
  induction xs with
  | nil => rfl
  | cons x xs ih =>
    simp only [List.forM_eq_forM] at ih ⊢
    rw [List.flatMap_cons, List.forM_append, List.forM_cons, ih]

theorem mapM_succeeds_iff {f : α → Except ε β} {xs : List α} :
    (∃ ys, xs.mapM f = .ok ys) ↔ ∀ x ∈ xs, ∃ y, f x = .ok y := by
  simp only [← verdict_eq_ok_iff, verdict_mapM, forM_eq_ok_iff]

theorem exists_mem_of_mapM_eq_error {f : α → Except ε β} {xs : List α} {e : ε}
    (h : xs.mapM f = .error e) : ∃ x ∈ xs, f x = .error e := by
  rw [← verdict_eq_error_iff, verdict_mapM] at h
  obtain ⟨before, x, after, rfl, _, he⟩ := forM_eq_error h
  exact ⟨x, List.mem_append_right _ List.mem_cons_self, verdict_eq_error_iff.1 he⟩

section FirstFault

theorem forall_split_cons_iff {P : List α → α → Prop} {x : α} {xs : List α} :
    (∀ before y after, x :: xs = before ++ y :: after → P before y) ↔
      P [] x ∧ ∀ before y after, xs = before ++ y :: after → P (x :: before) y := by
  refine ⟨?_, ?_⟩
  · intro h
    refine ⟨h [] x xs rfl, ?_⟩
    rintro before y after rfl
    exact h (x :: before) y after rfl
  · rintro ⟨hx, hxs⟩ before y after hs
    cases before with
    | nil =>
      cases hs
      exact hx
    | cons z before =>
      cases hs
      exact hxs before y after rfl

/-- A check that goes along a list and stops at the first element at fault, given those before
it. -/
structure StopsAtFault (check : List α → List α → Except ε Unit)
    (Fault : List α → α → ε → Prop) : Prop where
  nil : ∀ earlier, check earlier [] = .ok ()
  fault : ∀ {earlier x e} xs, Fault earlier x e → check earlier (x :: xs) = .error e
  pass : ∀ {earlier x} xs, (∀ e, ¬ Fault earlier x e) →
    check earlier (x :: xs) = check (earlier ++ [x]) xs

variable {check : List α → List α → Except ε Unit} {Fault : List α → α → ε → Prop}
  {e : ε}

theorem StopsAtFault.eq_ok_iff (h : StopsAtFault check Fault) (earlier xs : List α) :
    check earlier xs = .ok () ↔
      ∀ before x after, xs = before ++ x :: after → ∀ e, ¬ Fault (earlier ++ before) x e := by
  induction xs generalizing earlier with
  | nil => simp [h.nil]
  | cons x xs ih =>
    -- The elements passed move into `earlier`, so it is generalized.
    rw [forall_split_cons_iff (P := fun before x => ∀ e, ¬ Fault (earlier ++ before) x e),
      List.append_nil]
    by_cases hx : ∃ e, Fault earlier x e
    · obtain ⟨e, hx⟩ := hx
      rw [h.fault xs hx]
      refine ⟨?_, ?_⟩
      · intro hok
        cases hok
      · intro hpass
        exact (hpass.1 e hx).elim
    · have hpass := not_exists.1 hx
      rw [h.pass xs hpass, ih]
      simp [hpass]

/-- The answer is what is wrong with the first element at fault. -/
theorem StopsAtFault.eq_error_iff (h : StopsAtFault check Fault) (earlier xs : List α) :
    check earlier xs = .error e ↔ ∃ before x after, xs = before ++ x :: after ∧
      (∀ b y c, before = b ++ y :: c → ∀ e', ¬ Fault (earlier ++ b) y e') ∧
      Fault (earlier ++ before) x e := by
  refine ⟨?_, ?_⟩
  · intro herror
    induction xs generalizing earlier with
    | nil =>
      rw [h.nil] at herror
      cases herror
    | cons x xs ih =>
      by_cases hx : ∃ e, Fault earlier x e
      · obtain ⟨e', hx⟩ := hx
        rw [h.fault xs hx] at herror
        cases herror
        exact ⟨[], x, xs, rfl, by simp, by rwa [List.append_nil]⟩
      · have hpass := not_exists.1 hx
        rw [h.pass xs hpass] at herror
        obtain ⟨before, y, after, rfl, hb, hy⟩ := ih _ herror
        refine ⟨x :: before, y, after, rfl, ?_, by simpa using hy⟩
        apply (forall_split_cons_iff (P := fun b y => ∀ e', ¬ Fault (earlier ++ b) y e')).2
        refine ⟨by simpa using hpass, ?_⟩
        simpa using hb
  · rintro ⟨before, x, after, rfl, hb, hx⟩
    induction before generalizing earlier with
    | nil => exact h.fault after (by simpa using hx)
    | cons y before ih =>
      rw [forall_split_cons_iff (P := fun b y => ∀ e', ¬ Fault (earlier ++ b) y e')] at hb
      rw [List.cons_append, h.pass _ (by simpa using hb.1)]
      exact ih _ (by simpa using hb.2) (by simpa using hx)

theorem nodup_map_iff {k : α → β} {xs : List α} :
    (xs.map k).Nodup ↔
      ∀ before x after, xs = before ++ x :: after → k x ∉ before.map k := by
  refine ⟨?_, ?_⟩
  · rintro h before x after rfl hx
    rw [List.map_append, List.map_cons, List.nodup_append] at h
    exact h.2.2 (k x) hx (k x) List.mem_cons_self rfl
  · intro h
    induction xs using List.reverseRecOn with
    | nil => exact List.nodup_nil
    | append_singleton xs x ih =>
      rw [List.map_append, List.map_singleton, List.nodup_append]
      refine ⟨ih ?_, List.nodup_singleton _, ?_⟩
      · rintro before y after rfl
        exact h before y (after ++ [x]) (by simp)
      · rintro a ha b hb rfl
        cases List.mem_singleton.1 hb
        exact h xs x [] rfl ha

end FirstFault

end WireModel.Outcome
