/-!
# Configuration

The health check of a VIP, as the TOML config and the VIP API give it, with the
defaults of the fields that may be left out.
-/

namespace StormLb.Config

inductive HealthMode where
  | tcp
  | http
  | https
  deriving DecidableEq, Repr

structure HealthSpec where
  mode : HealthMode := .tcp
  path : String := "/readyz"
  intervalSecs : UInt64 := 2
  timeoutSecs : UInt64 := 2
  expectStatus : List UInt16 := [200]
  caFile : Option String := none
  deriving DecidableEq, Repr

end StormLb.Config
