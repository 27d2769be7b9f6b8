import GatewayPlan.Event
import GatewayPlan.Error

/-!
# Results with a log

A result or an error, and the events told on the way to it. Events stay when an error follows.
-/

namespace GatewayPlan

structure Logged (α : Type) where
  log : List Event
  result : Except Error α

namespace Logged

variable {α β γ : Type}

protected def pure (a : α) : Logged α := ⟨[], .ok a⟩

protected def bind (x : Logged α) (f : α → Logged β) : Logged β :=
  match x.result with
  | .ok a => ⟨x.log ++ (f a).log, (f a).result⟩
  | .error e => ⟨x.log, .error e⟩

instance : Monad Logged where
  pure := Logged.pure
  bind := Logged.bind

def fail (e : Error) : Logged α := ⟨[], .error e⟩

/-- A result that tells the log nothing. -/
def quiet (r : Except Error α) : Logged α := ⟨[], r⟩

def tell (events : List Event) : Logged Unit := ⟨events, .ok ()⟩

@[ext] theorem ext {x y : Logged α} (hl : x.log = y.log) (hr : x.result = y.result) : x = y := by
  cases x; cases y; cases hl; cases hr; rfl

@[simp] theorem pure_log (a : α) : (pure a : Logged α).log = [] := rfl

@[simp] theorem pure_result (a : α) : (pure a : Logged α).result = .ok a := rfl

theorem bind_eq (x : Logged α) (f : α → Logged β) : x >>= f = match x.result with
    | .ok a => ⟨x.log ++ (f a).log, (f a).result⟩
    | .error e => ⟨x.log, .error e⟩ := rfl

theorem pure_bind (a : α) (f : α → Logged β) : (pure a : Logged α) >>= f = f a := by
  ext1 <;> simp [bind_eq]

theorem bind_pure (x : Logged α) : x >>= pure = x := by
  rw [bind_eq]
  cases h : x.result <;> ext1 <;> simp [h]

theorem bind_assoc (x : Logged α) (f : α → Logged β) (g : β → Logged γ) :
    x >>= f >>= g = x >>= fun a => f a >>= g := by
  rw [bind_eq x f, bind_eq x]
  cases x.result with
  | error e => rfl
  | ok a =>
    simp only [bind_eq]
    cases (f a).result <;> simp

end Logged

end GatewayPlan
