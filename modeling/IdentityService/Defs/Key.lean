import IdentityService.Defs.Encoding
import IdentityService.Defs.GoTrim
import IdentityService.Defs.NewService
import IdentityService.Lib.Padding

/-! The 32-byte keys of the second factor in base64, as the configuration and the cipher read
them. -/

namespace IdentityService

open Lib

namespace Base64

def rawURLBytes : Alphabet UInt8 64 :=
  .ofLetters (url.map (fun c => UInt8.ofNat c.toNat)) rfl (by decide +kernel)
    (fun b => b = 0x0D || b = 0x0A) (by decide +kernel)

end Base64

namespace Base64Encoding

def encoding : Base64Encoding → Lib.Base64.Encoding UInt8
  | std => ⟨Base64.rawStd, 0x3D, true, by decide +kernel, by decide⟩
  | rawStd => ⟨Base64.rawStd, 0x3D, false, by decide +kernel, by decide⟩
  | url => ⟨Base64.rawURLBytes, 0x3D, true, by decide +kernel, by decide⟩
  | rawURL => ⟨Base64.rawURLBytes, 0x3D, false, by decide +kernel, by decide⟩

def encodeToString (e : Base64Encoding) (b : Bytes) : Bytes := e.encoding.encode b

def decodeString (e : Base64Encoding) (b : Bytes) : Option Bytes := e.encoding.decode false b

def all : List Base64Encoding := [std, rawStd, url, rawURL]

end Base64Encoding

def ServiceConfig.isBase64Key (value : Bytes) (size : Nat) : Bool :=
  let value := Go.trimSpaceBytes value
  Base64Encoding.all.any (fun encoding =>
    match encoding.decodeString value with
    | some decoded => decoded.length = size
    | none => false)

def decodeMFAKey (value : Bytes) : Except String Bytes :=
  loop (Go.trimSpaceBytes value) Base64Encoding.all
where
  loop (value : Bytes) : List Base64Encoding → Except String Bytes
    | [] => .error "key must be base64 encoded 32 bytes"
    | encoding :: encodings =>
      match encoding.decodeString value with
      | some decoded => if decoded.length = 32 then .ok decoded else loop value encodings
      | none => loop value encodings

def StandardLibrary.DecodesBase64 (std : StandardLibrary) : Prop :=
  ∀ (e : Base64Encoding) (s : String), std.decodeString e s = e.decodeString (Go.utf8 s)

end IdentityService
