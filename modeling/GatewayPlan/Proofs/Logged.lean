import GatewayPlan.Logged
import Mathlib.Data.List.Forall2

/-!
# Outcomes of logged computations

How a computation ends and what it tells the log, for a sequence and for a whole list. Two
computations are alike when they tell the same and end in one error or in related values.
-/

namespace GatewayPlan.Logged

variable {α β γ δ : Type}

instance : LawfulMonad Logged :=
  LawfulMonad.mk' Logged bind_pure pure_bind bind_assoc

def Succeeds (x : Logged α) : Prop :=
  ∃ a, x.result = .ok a

@[simp] theorem not_succeeds_fail (e : Error) : ¬ (fail e : Logged α).Succeeds := by
  rintro ⟨a, h⟩
  cases h

theorem bind_ok {x : Logged α} {a : α} (h : x.result = .ok a) (f : α → Logged β) :
    x >>= f = ⟨x.log ++ (f a).log, (f a).result⟩ := by
  rw [bind_eq, h]

theorem bind_error {x : Logged α} {e : Error} (h : x.result = .error e) (f : α → Logged β) :
    x >>= f = ⟨x.log, .error e⟩ := by
  rw [bind_eq, h]

theorem quiet_ok_bind (a : α) (f : α → Logged β) : quiet (.ok a) >>= f = f a :=
  pure_bind a f

theorem quiet_error_bind (e : Error) (f : α → Logged β) : quiet (.error e) >>= f = fail e :=
  rfl

theorem tell_bind (events : List Event) (f : Unit → Logged β) :
    tell events >>= f = ⟨events ++ (f ()).log, (f ()).result⟩ :=
  rfl

theorem exists_results {f : α → Logged β} {xs : List α} (h : ∀ x ∈ xs, (f x).Succeeds) :
    ∃ ys, List.Forall₂ (fun x y => (f x).result = .ok y) xs ys := by
  induction xs with
  | nil => exact ⟨[], .nil⟩
  | cons x rest ih =>
    obtain ⟨y, hy⟩ := h x List.mem_cons_self
    obtain ⟨ys, hys⟩ := ih fun z hz => h z (List.mem_cons_of_mem x hz)
    exact ⟨y :: ys, .cons hy hys⟩

/-- If every item succeeds, the log is that of the items in order. -/
theorem mapM_ok {f : α → Logged β} {xs : List α} {ys : List β}
    (h : List.Forall₂ (fun x y => (f x).result = .ok y) xs ys) :
    xs.mapM f = ⟨xs.flatMap fun x => (f x).log, .ok ys⟩ := by
  induction h with
  | nil => rfl
  | cons head _ ih =>
    rw [List.mapM_cons, bind_ok head, ih, bind_ok rfl]
    ext1
    · simp only [pure_log, List.append_nil, List.flatMap_cons]
    · rfl

/-- The first item that fails ends the list. What is behind it leaves no trace. -/
theorem mapM_error {f : α → Logged β} {before : List α} {x : α} (after : List α) {e : Error}
    (earlier : ∀ y ∈ before, (f y).Succeeds) (h : (f x).result = .error e) :
    (before ++ x :: after).mapM f =
      ⟨(before.flatMap fun y => (f y).log) ++ (f x).log, .error e⟩ := by
  induction before with
  | nil =>
    rw [List.nil_append, List.mapM_cons, bind_error h]
    rfl
  | cons y rest ih =>
    obtain ⟨b, hb⟩ := earlier y List.mem_cons_self
    have tail := ih fun z hz => earlier z (List.mem_cons_of_mem y hz)
    rw [List.cons_append, List.mapM_cons, bind_ok hb, tail, bind_error rfl,
      List.flatMap_cons, List.append_assoc]

theorem bind_result_eq_ok {x : Logged α} {f : α → Logged β} {b : β} :
    (x >>= f).result = .ok b ↔ ∃ a, x.result = .ok a ∧ (f a).result = .ok b := by
  cases ends : x.result with
  | error e => simp [bind_error ends]
  | ok a => simp [bind_ok ends]

/-- A list that was gone through to its end has a result for each item. -/
theorem results_of_mapM {f : α → Logged β} {xs : List α} {ys : List β}
    (h : (xs.mapM f).result = .ok ys) :
    List.Forall₂ (fun x y => (f x).result = .ok y) xs ys := by
  induction xs generalizing ys with
  | nil =>
    cases h
    exact .nil
  | cons x rest ih =>
    rw [List.mapM_cons] at h
    obtain ⟨y, head, h⟩ := bind_result_eq_ok.mp h
    obtain ⟨ys', tail, h⟩ := bind_result_eq_ok.mp h
    cases h
    exact .cons head (ih tail)

/-- All that the log is told satisfies `P`, however the computation ends. -/
def Tells (P : Event → Prop) (x : Logged α) : Prop :=
  ∀ event ∈ x.log, P event

theorem tells_quiet (P : Event → Prop) (r : Except Error α) : (quiet r).Tells P :=
  fun _ mem => absurd mem List.not_mem_nil

theorem tells_pure (P : Event → Prop) (a : α) : (pure a : Logged α).Tells P :=
  fun _ mem => absurd mem List.not_mem_nil

theorem tells_fail (P : Event → Prop) (e : Error) : (fail e : Logged α).Tells P :=
  fun _ mem => absurd mem List.not_mem_nil

theorem tells_tell (P : Event → Prop) {event : Event} (h : P event) : (tell [event]).Tells P := by
  intro other mem
  rwa [List.mem_singleton.mp mem]

theorem Tells.bind {P : Event → Prop} {x : Logged α} {f : α → Logged β} (h : x.Tells P)
    (rest : ∀ a, (f a).Tells P) : (x >>= f).Tells P := by
  intro event mem
  cases ends : x.result with
  | error e =>
    rw [bind_error ends] at mem
    exact h event mem
  | ok a =>
    rw [bind_ok ends] at mem
    rcases List.mem_append.mp mem with first | second
    · exact h event first
    · exact rest a event second

/-- Two computations with one log that end in one error or in values related by `R`. -/
inductive Alike (R : α → β → Prop) : Logged α → Logged β → Prop
  | ok {log : List Event} {a : α} {b : β} : R a b → Alike R ⟨log, .ok a⟩ ⟨log, .ok b⟩
  | error {log : List Event} {e : Error} : Alike R ⟨log, .error e⟩ ⟨log, .error e⟩

namespace Alike

variable {R : α → β → Prop} {S : γ → δ → Prop}

theorem of_eq (x : Logged α) : Alike Eq x x := by
  obtain ⟨log, result⟩ := x
  cases result with
  | ok a => exact .ok rfl
  | error e => exact .error

theorem bind {x : Logged α} {y : Logged β} {f : α → Logged γ} {g : β → Logged δ}
    (h : Alike R x y) (rest : ∀ a b, R a b → Alike S (f a) (g b)) :
    Alike S (x >>= f) (y >>= g) := by
  cases h with
  | error => exact .error
  | @ok log a b related =>
    rw [bind_ok rfl, bind_ok rfl]
    have step := rest a b related
    generalize f a = u at step
    generalize g b = v at step
    cases step with
    | ok ends => exact .ok ends
    | error => exact .error

theorem mapM {f : α → Logged γ} {g : α → Logged δ} (xs : List α)
    (h : ∀ x ∈ xs, Alike S (f x) (g x)) : Alike (List.Forall₂ S) (xs.mapM f) (xs.mapM g) := by
  induction xs with
  | nil => exact .ok .nil
  | cons x rest ih =>
    rw [List.mapM_cons, List.mapM_cons]
    apply bind (h x List.mem_cons_self)
    intro a b head
    apply bind (ih fun y hy => h y (List.mem_cons_of_mem x hy))
    intro as bs tail
    exact .ok (.cons head tail)

end Alike

end GatewayPlan.Logged
