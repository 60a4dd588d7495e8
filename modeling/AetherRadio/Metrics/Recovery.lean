import AetherRadio.Lib.Table

/-!
# Recovery policy executor

`crates/metrics-engine/src/recovery.rs`: the executor looks up and records the action of a fault
class; carrying it out is left to the caller.
-/

namespace AetherRadio

open Verif

/-- The actions a policy can name. From `crates/metrics-engine/src/recovery.rs:11–19`. -/
inductive RecoveryAction where
  | markInvalidContinue
  | recoverSequence
  | dropOldestResyncSlot
  | restartStream
  | alertAndContinue
  | recordAndDrop
  | unknown
  deriving DecidableEq, Repr

/-- A map from fault class to action. From `crates/metrics-engine/src/recovery.rs:61–64`. -/
structure RecoveryPolicy where
  actions : Table String RecoveryAction

/-- `action_for`. From `crates/metrics-engine/src/recovery.rs:93–98`. -/
def RecoveryPolicy.actionFor (self : RecoveryPolicy) (faultClass : String) : RecoveryAction :=
  (self.actions.get? faultClass).getD .unknown

/-- A policy and the actions applied so far.
From `crates/metrics-engine/src/recovery.rs:103–106`. -/
structure RecoveryExecutor where
  policy : RecoveryPolicy
  applied : List (String × RecoveryAction)

namespace RecoveryExecutor

/-- An executor that has applied nothing. From `crates/metrics-engine/src/recovery.rs:109–114`. -/
def new (policy : RecoveryPolicy) : RecoveryExecutor := { policy, applied := [] }

/-- `apply`. From `crates/metrics-engine/src/recovery.rs:120–131`. -/
def apply (self : RecoveryExecutor) (faultClass : String) : RecoveryExecutor × RecoveryAction :=
  let action := self.policy.actionFor faultClass
  ({ self with applied := self.applied ++ [(faultClass, action)] }, action)

end RecoveryExecutor

end AetherRadio
