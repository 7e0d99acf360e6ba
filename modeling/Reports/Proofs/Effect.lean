import Reports.Session

/-! Steps of programs that may fail and keep the state of a failure, and the rules that an action
obeys because each of its steps does. -/
namespace Reports

namespace Effect

variable {σ α β : Type} {x : ExceptT Error (StateM σ) α} {s s' : σ}

theorem bind_ok {a : α} (f : α → ExceptT Error (StateM σ) β) (h : x s = (.ok a, s')) :
    (x >>= f) s = f a s' := by
  change StateT.bind x (ExceptT.bindCont f) s = f a s'
  rw [StateT.bind, h]
  rfl

theorem bind_error {e : Error} (f : α → ExceptT Error (StateM σ) β)
    (h : x s = (.error e, s')) : (x >>= f) s = (.error e, s') := by
  change StateT.bind x (ExceptT.bindCont f) s = (.error e, s')
  rw [StateT.bind, h]
  rfl

theorem ok_of_bind {x : Except Error α} {f : α → Except Error β} {b : β}
    (h : (x >>= f) = .ok b) :
    ∃ a, x = .ok a ∧ f a = .ok b := by
  cases x with
  | error e => cases h
  | ok a => exact ⟨a, rfl, h⟩

theorem of_bind_ok {f : α → ExceptT Error (StateM σ) β} {b : β} {t : σ}
    (h : (x >>= f) s = (.ok b, t)) : ∃ a r, x s = (.ok a, r) ∧ f a r = (.ok b, t) := by
  rcases first : x s with ⟨e | a, r⟩
  · rw [bind_error f first] at h
    cases h
  · rw [bind_ok f first] at h
    exact ⟨a, r, rfl, h⟩

end Effect

/-- How a session may go on, and with which errors an action may fail. Events are nobody's
concern. -/
structure Session.Rule where
  Goes : Session → Session → Prop
  Fails : Error → Prop
  refl : ∀ s, Goes s s
  trans : ∀ {s s' s''}, Goes s s' → Goes s' s'' → Goes s s''
  heard : ∀ s events, Goes s { s with events }

namespace Action

variable {α β : Type} {rule : Session.Rule}

def Obeys (x : Action α) (rule : Session.Rule) : Prop :=
  ∀ s, rule.Goes s (x s).2 ∧ ∀ e, (x s).1 = .error e → rule.Fails e

namespace Obeys

theorem pure (a : α) : Obeys (pure a : Action α) rule := fun s => ⟨rule.refl s, nofun⟩

theorem throw {e : Error} (fails : rule.Fails e) : Obeys (throw e : Action α) rule := by
  refine fun s => ⟨rule.refl s, fun e' same => ?_⟩
  cases same
  exact fails

theorem bind {x : Action α} {f : α → Action β} (hx : x.Obeys rule)
    (hf : ∀ a, (f a).Obeys rule) :
    Obeys (x >>= f) rule := by
  intro s
  obtain ⟨goes, fails⟩ := hx s
  rcases outcome : x s with ⟨e | a, s'⟩
  · rw [outcome] at goes fails
    rw [Effect.bind_error f outcome]
    refine ⟨goes, fun e' same => ?_⟩
    cases same
    exact fails e rfl
  · rw [outcome] at goes
    rw [Effect.bind_ok f outcome]
    exact ⟨rule.trans goes (hf a s').1, (hf a s').2⟩

theorem attempt {x : Action α} (hx : x.Obeys rule) : Obeys (Session.attempt x) rule := fun s =>
  ⟨(hx s).1, nofun⟩

theorem log (e : Event) : Obeys (Session.log e : Action Unit) rule :=
  fun s => ⟨rule.heard s _, nofun⟩

theorem logAll (events : List Event) :
    Obeys (modify fun s => { s with events := s.events ++ events } : Action Unit) rule := fun s =>
  ⟨rule.heard s _, nofun⟩

end Obeys

end Action

end Reports
