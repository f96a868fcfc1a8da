import DomainModel.Json.Record
import DomainModel.Settings.Basic

/-! # Settings as JSON

A record whose fields may all be missing; null is no value for any of them. -/

namespace DomainModel.Settings

def ofJson? : Nat → Json → Option Settings :=
  Json.record { more := ["ternary_branches", "parallel", "skip"] } fun room ms => do
    return {
      policy := ← ms.withDefault "ternary_branches" default.policy (Json.word false room)
      parallel := ← ms.withDefault "parallel" default.parallel Json.toBool?
      skip := ← ms.withDefault "skip" default.skip (Json.list (Json.word false) room) }

end DomainModel.Settings
