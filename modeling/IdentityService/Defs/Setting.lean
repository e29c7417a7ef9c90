import IdentityService.Defs.Go

/-! Settings that are lists, from a file or from the environment. -/

namespace IdentityService

def Go.trim (cutset : List UInt8) (b : Bytes) : Bytes :=
  ((b.reverse.dropWhile (· ∈ cutset)).reverse).dropWhile (· ∈ cutset)

inductive Setting : Type
  | slice (values : List Bytes)
  | string (data : Bytes)
deriving DecidableEq

def stringToStringSliceHook : Setting → Setting
  | .slice values => .slice values
  | .string data =>
    let raw := Go.trimSpaceBytes data
    let raw :=
      if raw.head? = some 0x5B ∧ raw.getLast? = some 0x5D then
        Go.trimSpaceBytes (raw.tail.dropLast)
      else raw
    if raw = [] then .slice []
    else .slice ((raw.splitOn 0x2C).map (fun value =>
      Go.trim [0x22, 0x27] (Go.trimSpaceBytes value)))

end IdentityService
