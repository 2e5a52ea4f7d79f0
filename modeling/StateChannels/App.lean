import StateChannels.State
import StateChannels.Table

/-!
# `StateChannels.App`: which state may follow which

Some rules hold in every channel. Channel, application and challenge
time are fixed, the turn number grows by one, nothing but a final
state follows a final state, and in the first two rounds only the
turn number changes. What these rules leave open an application
decides.

Main statement: `validTransition_eq_ok_true_iff` lists the rules.
-/

set_option autoImplicit false

namespace StateChannels

/-- An application: whether it lets one state follow another, in a
channel of so many participants. A rule that counts may overflow. -/
structure App where
  accepts : (prev next : State) → (size : Nat) → Except Overflow Bool

namespace App

/-- Lets any state follow. -/
def trivial : App := ⟨fun _ _ _ => .ok true⟩

/-- The counter that 32 bytes of application data hold. -/
def counter? (appData : Bytes) : Option Uint256 :=
  if appData.length = 32 then Uint256.ofBytes? appData else none

/-- The application data of a counter. -/
def counterData (n : Uint256) : Bytes := n.toBytes

/-- The data is a counter. It grows by one with each move, and the
outcome stays. -/
def counting : App where
  accepts prev next _ :=
    match counter? prev.appData, counter? next.appData with
    | some a, some b => .ok (a.add? .one = some b ∧ prev.outcome = next.outcome)
    | _, _ => .ok false

/-- How many turns the first two rounds have. -/
def setupTurns (size : Nat) : Except Overflow Nat :=
  if 2 * size < 2 ^ 64 then .ok (2 * size) else .error .multiplication

/-- Whether `next` may follow `prev` under an application. -/
def validTransition (app : App) (prev next : State) (size : Nat) : Except Overflow Bool :=
  if ¬(next.follows prev ∧ next.appDefinition = prev.appDefinition ∧
      next.challengeDuration = prev.challengeDuration) then
    .ok false
  else if next.isFinal then .ok (next.outcome = prev.outcome)
  else if prev.isFinal then .ok false
  else do
    if next.turnNum.toNat < (← setupTurns size) then
      return next.outcome = prev.outcome ∧ next.appData = prev.appData
    else app.accepts prev next size

/-- The rules of a transition. -/
theorem validTransition_eq_ok_true_iff {app : App} {prev next : State} {size : Nat} :
    app.validTransition prev next size = .ok true ↔
      (next.follows prev ∧ next.appDefinition = prev.appDefinition ∧
        next.challengeDuration = prev.challengeDuration) ∧
      if next.isFinal then next.outcome = prev.outcome
      else prev.isFinal = false ∧ 2 * size < 2 ^ 64 ∧
        if next.turnNum.toNat < 2 * size then
          next.outcome = prev.outcome ∧ next.appData = prev.appData
        else app.accepts prev next size = .ok true := by
  unfold validTransition setupTurns
  by_cases fits : 2 * size < 2 ^ 64
  · simp only [if_pos fits, bind, Except.bind, pure, Except.pure]
    repeat' split
    all_goals simp_all
  · simp only [fits, if_false, bind, Except.bind, false_and, and_false]
    repeat' split
    all_goals simp_all

end App

/-- The applications that are known, by their address. -/
abbrev AppRegistry := Table Address App

/-- The text of a registry: its addresses. -/
def AppRegistry.text (apps : AppRegistry) : String :=
  "\x7b" ++ String.intercalate ", " (apps.keys.map Address.text) ++ "\x7d"

end StateChannels
