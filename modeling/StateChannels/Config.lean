import StateChannels.Checked
import StateChannels.Outbox

/-!
# `StateChannels.Config`: the settings of a wallet

A wallet counts attempts to agree on a strategy, bounds its queue of
messages, and has a challenge time for the channels that it makes
itself. Settings are read from named values: what is not named keeps
its default, and a name that is not known is skipped.

Main statement: `Config.validate_eq_ok_iff`.
-/

set_option autoImplicit false

namespace StateChannels

/-- Why settings are refused: one of them is zero. -/
inductive ConfigError where
  | zero (setting : String)
deriving DecidableEq

/-- The text of an error. -/
def ConfigError.message : ConfigError → String
  | zero setting => setting ++ " must be at least 1"

/-- The settings of a wallet. -/
@[ext] structure Config where
  /-- Proposals of a strategy for a channel before giving up. -/
  maxStrategyAttempts : UInt32 := 3
  /-- Messages that may wait for the transport. -/
  outboxCapacity : UInt64 := 64
  backpressure : Backpressure := .dropOldest
  /-- The challenge time of channels that the wallet makes. -/
  challengeDuration : Seconds := 86400
deriving DecidableEq

/-- A named value from outside. -/
inductive Setting where
  | number (z : Int)
  | text (s : String)
  /-- A value of any other kind. -/
  | other
deriving DecidableEq

/-- The value as a number below `bound`. -/
def Setting.below? (bound : Nat) : Setting → Option Nat
  | number z => if 0 ≤ z ∧ z < bound then some z.toNat else none
  | _ => none

/-- The value as the name of a policy. -/
def Setting.backpressure? : Setting → Option Backpressure
  | text "DropOldest" => some .dropOldest
  | text "Reject" => some .reject
  | _ => none

/-- The name of a policy. -/
def Backpressure.name : Backpressure → String
  | dropOldest => "DropOldest"
  | reject => "Reject"

namespace Config

/-- Refuses settings that are zero. -/
def validate (c : Config) : Except ConfigError Unit :=
  if c.maxStrategyAttempts = 0 then .error (.zero "max_strategy_attempts")
  else if c.outboxCapacity = 0 then .error (.zero "outbound_queue_capacity")
  else if c.challengeDuration = 0 then .error (.zero "default_challenge_duration")
  else .ok ()

/-- Settings are accepted exactly if none is zero. -/
theorem validate_eq_ok_iff {c : Config} :
    c.validate = .ok () ↔
      c.maxStrategyAttempts ≠ 0 ∧ c.outboxCapacity ≠ 0 ∧ c.challengeDuration ≠ 0 := by
  unfold validate
  repeat' split
  all_goals simp_all

/-- The settings with one of them changed. There are none if the
value is of the wrong kind or out of range. -/
def set? (c : Config) (name : String) (value : Setting) : Option Config :=
  match name with
  | "max_strategy_attempts" =>
    (value.below? (2 ^ 32)).map fun n => { c with maxStrategyAttempts := UInt32.ofNat n }
  | "outbound_queue_capacity" =>
    (value.below? (2 ^ 64)).map fun n => { c with outboxCapacity := UInt64.ofNat n }
  | "default_challenge_duration" =>
    (value.below? (2 ^ 64)).map fun n => { c with challengeDuration := UInt64.ofNat n }
  | "backpressure" => value.backpressure?.map fun p => { c with backpressure := p }
  | _ => some c

/-- The default settings with the named ones changed. -/
def ofSettings? (settings : List (String × Setting)) : Option Config :=
  settings.foldlM (fun c (name, value) => c.set? name value) {}

end Config

end StateChannels
