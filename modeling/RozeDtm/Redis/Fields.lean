import RozeDtm.Codec.Base64
import RozeDtm.Codec.Digits
import RozeDtm.Codec.JsonText
import RozeDtm.Model.Store

/-!
# The fields of the Redis hashes

A hash holds the entries of one sort, and a field of it names one entry: `kv_field` that of a
category and key, `barrier_field` that of a barrier, `lease_fields` the three of a lease.
`RedisLibs` is what they use of other packages.
-/

namespace RozeDtm

open Codec

/-- What the fields use of other packages. -/
structure RedisLibs where
  /-- `URL_SAFE_NO_PAD.encode`. -/
  encodeBase64Url : List UInt8 → String
  /-- `serde_json::to_string` of a tuple of texts. -/
  jsonOfTexts : List String → Except Err String

/-- `kv_field`; `len` counts bytes. -/
def kvField (category key : String) : String := s!"{category.utf8ByteSize}:{category}{key}"

namespace RedisLibs

variable (libs : RedisLibs)

/-- `barrier_field`. -/
def barrierField (gid branchId op : String) : Except Err String :=
  (libs.jsonOfTexts [gid, branchId, op]).mapError fun _ => "encode Redis barrier field"

/-- `lease_fields`: the owner, the expiry and the epoch. -/
def leaseFields (name : String) : String × String × String :=
  let lease := libs.encodeBase64Url name.toUTF8.data.toList
  (s!"{lease}:owner", s!"{lease}:expiry", s!"{lease}:epoch")

end RedisLibs

/-- The packages as they are: base64 in the alphabet for URLs without padding, and JSON. -/
def RedisLibs.standard : RedisLibs where
  encodeBase64Url := Base64.encodeUrl
  jsonOfTexts := fun texts =>
    .ok (String.ofList (JsonText.arrayChars (texts.map String.toList)))

end RozeDtm
