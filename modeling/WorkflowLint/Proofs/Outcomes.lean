import Mathlib.Data.List.Forall2

/-! Computations that may fail, step by step and beside one another. Two of them agree if both
succeed, with results that are related, or both fail: how they fail does not count, and so the order
in which their parts run does not.
-/

namespace WorkflowLint

-----------------------------------------------------------------------------------------
-- Steps
-----------------------------------------------------------------------------------------

/-- A reading that goes through has gone through step by step. -/
theorem exists_of_bind_eq_ok {ε α β : Type} {first : Except ε α} {next : α → Except ε β} {b : β}
    (ok : first >>= next = .ok b)
    : ∃ a, first = .ok a ∧ next a = .ok b := by
  cases first with
  | error e => cases ok
  | ok a => exact ⟨a, rfl, ok⟩

theorem eq_ok_of_mapError {ε δ α : Type} {first : Except ε α} {word : ε → δ} {a : α}
    (ok : first.mapError word = .ok a)
    : first = .ok a := by
  cases first with
  | error e => cases ok
  | ok b =>
      cases ok
      rfl

theorem eq_ok_of_toOption {ε α : Type} {first : Except ε α} {a : α}
    (found : first.toOption = some a)
    : first = .ok a := by
  cases first with
  | error e => cases found
  | ok b =>
      cases found
      rfl

/-- Reading each item as what it is built from takes a list of built items apart. -/
theorem mapM_eq_ok_iff {ε α β : Type} {read : α → Except ε β} {build : β → α}
    (inverse : ∀ a b, read a = .ok b ↔ a = build b) {items : List α} {parts : List β}
    : items.mapM read = .ok parts ↔ items = parts.map build := by
  induction items generalizing parts with
  | nil => cases parts <;> simp [pure, Except.pure]
  | cons a more ih =>
      rw [List.mapM_cons]
      cases first : read a with
      | error e =>
          have other : ∀ b, a ≠ build b := by
            intro b same
            rw [(inverse a b).mpr same] at first
            contradiction
          cases parts <;> simp [bind, Except.bind, other]
      | ok b =>
          cases parts with
          | nil => cases rest : more.mapM read <;> simp [bind, Except.bind, pure, Except.pure]
          | cons part parts =>
              have here : b = part ↔ a = build part := by
                rw [← inverse, first, Except.ok.injEq]
              have later : more.mapM read = .ok parts ↔ more = parts.map build := ih
              cases rest : more.mapM read <;>
                simp [bind, Except.bind, pure, Except.pure, rest, here, ← later]

theorem exists_of_forall₂ {α β : Type} {related : α → β → Prop} {items : List α}
    {results : List β} (each : List.Forall₂ related items results) {item : α}
    (member : item ∈ items)
    : ∃ result ∈ results, related item result := by
  induction each with
  | nil => cases member
  | cons here _ ih =>
      obtain rfl | member := List.mem_cons.mp member
      · exact ⟨_, List.mem_cons_self, here⟩
      · obtain ⟨result, later, same⟩ := ih member
        exact ⟨result, List.mem_cons_of_mem _ later, same⟩

-----------------------------------------------------------------------------------------
-- Agreement
-----------------------------------------------------------------------------------------

/-- Two computations succeed with related results, or both fail. -/
inductive Agree {ε α β : Type} (related : α → β → Prop) : Except ε α → Option β → Prop where
  | succeed {a : α} {b : β} (same : related a b) : Agree related (.ok a) (some b)
  | fail {e : ε} : Agree related (.error e) none

section Agree

variable {ε α β γ δ : Type} {related : α → β → Prop} {x : Except ε α} {y : Option β}

theorem Agree.map {further : α → δ → Prop} {after : β → δ} (outcome : Agree related x y)
    (next : ∀ a b, related a b → further a (after b))
    : Agree further x (y.map after) := by
  cases outcome with
  | succeed same => exact .succeed (next _ _ same)
  | fail => exact .fail

theorem Agree.bind {further : γ → δ → Prop} {next : α → Except ε γ} {after : β → Option δ}
    (first : Agree related x y)
    (second : ∀ a b, x = .ok a → y = some b → related a b → Agree further (next a) (after b))
    : Agree further (x.bind next) (y.bind after) := by
  cases first with
  | succeed same => exact second _ _ rfl rfl same
  | fail => exact .fail

theorem Agree.mapM {read : γ → Except ε α} {find : γ → Option β} {items : List γ}
    (each : ∀ item ∈ items, Agree related (read item) (find item))
    : Agree (List.Forall₂ related) (items.mapM read) (items.mapM find) := by
  induction items with
  | nil => exact .succeed .nil
  | cons item more ih =>
      obtain ⟨here, each⟩ := List.forall_mem_cons.mp each
      rw [List.mapM_cons, List.mapM_cons]
      refine here.bind fun a b _ _ same => (ih each).bind fun as bs _ _ later => ?_
      exact .succeed (.cons same later)

theorem Agree.exists_of_some (outcome : Agree related x y) {b : β} (present : y = some b)
    : ∃ a, x = .ok a ∧ related a b := by
  cases outcome with
  | succeed same =>
      cases present
      exact ⟨_, rfl, same⟩
  | fail => cases present

theorem Agree.exists_of_ok (outcome : Agree related x y) {a : α} (found : x = .ok a)
    : ∃ b, y = some b ∧ related a b := by
  cases outcome with
  | succeed same =>
      cases found
      exact ⟨_, rfl, same⟩
  | fail => cases found

end Agree

/-- Two computations agree with two others also if these run in the opposite order. -/
theorem Agree.opposite {ε α β γ δ η θ : Type} {related : α → β → Prop} {likewise : γ → δ → Prop}
    {joined : η → θ → Prop} {x : Except ε α} {y : Option β} {z : Except ε γ} {w : Option δ}
    {join : α → γ → η} {combine : β → δ → θ} (first : Agree related x y)
    (second : Agree likewise z w)
    (both : ∀ a b c d, related a b → likewise c d → joined (join a c) (combine b d))
    : Agree joined (z.bind fun c => x.bind fun a => .ok (join a c))
        (y.bind fun b => w.bind fun d => some (combine b d)) := by
  cases first with
  | succeed same =>
      cases second with
      | succeed same' => exact .succeed (both _ _ _ _ same same')
      | fail => exact .fail
  | fail => cases second <;> exact .fail

-----------------------------------------------------------------------------------------
-- Orders
-----------------------------------------------------------------------------------------

section Orders

variable {ε α β γ : Type} {read : α → Option β} {items others : List α}

/-- Reading items in another order gives the same results in that order. -/
theorem mapM_perm (order : items.Perm others) {results : List β}
    (found : items.mapM read = some results)
    : ∃ middle, others.mapM read = some middle ∧ results.Perm middle := by
  induction order generalizing results with
  | nil => exact ⟨results, found, .rfl⟩
  | cons item _ ih =>
      rw [List.mapM_cons] at found ⊢
      obtain ⟨result, here, found⟩ := Option.bind_eq_some_iff.mp found
      obtain ⟨more, later, found⟩ := Option.bind_eq_some_iff.mp found
      cases found
      obtain ⟨middle, later, order⟩ := ih later
      exact ⟨result :: middle, by rw [here, later]; rfl, order.cons result⟩
  | swap first second more =>
      simp only [List.mapM_cons] at found ⊢
      obtain ⟨b, second, found⟩ := Option.bind_eq_some_iff.mp found
      obtain ⟨_, both, found⟩ := Option.bind_eq_some_iff.mp found
      obtain ⟨a, first, both⟩ := Option.bind_eq_some_iff.mp both
      obtain ⟨rest, later, both⟩ := Option.bind_eq_some_iff.mp both
      cases both
      cases found
      exact ⟨a :: b :: rest, by rw [first, second, later]; rfl, .swap a b rest⟩
  | trans _ _ first second =>
      obtain ⟨middle, found, order⟩ := first found
      obtain ⟨last, found, order'⟩ := second found
      exact ⟨last, found, order.trans order'⟩

/-- A computation that agrees with reading items agrees with reading them in another order. -/
theorem Agree.reorder {related : γ → List β → Prop} {x : Except ε γ} (order : items.Perm others)
    (outcome : Agree related x (items.mapM read))
    : Agree (fun c results => ∃ middle, related c middle ∧ middle.Perm results) x
        (others.mapM read) := by
  cases found : items.mapM read with
  | some middle =>
      obtain ⟨results, found', order'⟩ := mapM_perm order found
      obtain ⟨c, rfl, same⟩ := outcome.exists_of_some found
      rw [found']
      exact .succeed ⟨middle, same, order'⟩
  | none =>
      have failed : others.mapM read = none := by
        refine Option.eq_none_iff_forall_ne_some.mpr fun results found' => ?_
        obtain ⟨middle, other, _⟩ := mapM_perm order.symm found'
        rw [found] at other
        cases other
      rw [found] at outcome
      rw [failed]
      cases outcome
      exact .fail

end Orders

end WorkflowLint
