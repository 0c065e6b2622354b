import Orrery.Foundation.Json

/-! Keys and did:keys as the chapter handles them (server/sovereign_identity.py). Base64,
base58 and the signature library are parameters. -/
namespace Orrery.Chapter
open Foundation Json

abbrev Bytes := List UInt8

inductive NaclAnswer
  | valid
  | badSignature
  | raised (e : Exc)
deriving DecidableEq

/-- `b64decode` skips what is not in the alphabet, the strict one refuses it; `parseInt` is
`int` of a text and `repr` the text of a value that is none. `verifyKey` is the
constructor of a key, `nacl` its verification. -/
structure Codec where
  b64decode : Json → Except Exc Bytes
  b64decode_empty : b64decode (.str "") = .ok []
  b64decode_text : ∀ value bytes, b64decode value = .ok bytes → ∃ s, value = .str s
  b64decodeStrict : String → Except Exc Bytes
  b64encode : Bytes → String
  b58decode : String → Except Exc Bytes
  b58encode : Bytes → String
  verifyKey : Bytes → Except Exc Unit
  nacl : Bytes → String → Bytes → NaclAnswer
  parseInt : String → Option Int
  repr : Json → String

def Codec.str (codec : Codec) : Json → String
  | .str s => s
  | other => codec.repr other

def Codec.int (codec : Codec) : Json → Option Int
  | .int i => some i
  | .bool b => some (if b then 1 else 0)
  | .float q => some (q.num.tdiv q.den)
  | .str s => codec.parseInt s
  | _ => none

def orText (a b : String) : String := if a = "" then b else a

def didKeyZ : String := "did:key:z"

def multicodecPrefix : Bytes := [0xed,0x01]

def startsWith (start s : String) : Bool := start.toList.isPrefixOf s.toList

def dropStart (start s : String) : String := String.ofList (s.toList.drop start.length)

def ed25519Verify (codec : Codec) (message signatureB64 publicKeyB64 : String) : Bool :=
  match codec.b64decode (.str publicKeyB64), codec.b64decode (.str signatureB64) with
  | .ok publicKey, .ok signature =>
    match codec.verifyKey publicKey with
    | .ok _ => codec.nacl publicKey message signature = .valid
    | .error _ => false
  | _, _ => false

def tryBuildDidKeyFromEd25519 (codec : Codec) (publicKeyB64 : String) : Option String :=
  match codec.b64decode (.str publicKeyB64) with
  | .ok bytes => if bytes.length = 32 then some (didKeyZ ++ codec.b58encode (multicodecPrefix ++ bytes)) else none
  | .error _ => none

def extractEd25519PubkeyFromDidKey (codec : Codec) (didKey : String) : Option String :=
  if startsWith didKeyZ didKey then
    match codec.b58decode (dropStart didKeyZ didKey) with
    | .ok raw =>
      if raw.length ≠ 34 ∨ raw.take 2 ≠ multicodecPrefix then none else some (codec.b64encode (raw.drop 2))
    | .error _ => none
  else none

def pubkeyFromProviderDid (codec : Codec) (did : String) : String :=
  if startsWith "did:key:" did then
    -- an empty text is no key, as in the source's test of its truth
    match (extractEd25519PubkeyFromDidKey codec did).filter (· ≠ "") with
    | some key => key
    | none =>
      let raw := dropStart "did:key:" did
      match codec.b64decodeStrict raw with
      | .ok bytes => if bytes.length = 32 then raw else ""
      | .error _ => ""
  else ""

/-- Keys and signatures are their own texts, and a key signs by its name. -/
def plainCodec : Codec where
  b64decode
    | .str s => .ok (s.toList.map fun c => UInt8.ofNat c.toNat)
    | other => .error (.typeError s!"argument should be a bytes-like object or ASCII string, not {other.typeName}")
  b64decode_empty := rfl
  b64decode_text value bytes decoded := by
    cases value with
    | str s => exact ⟨s,rfl⟩
    | null => cases decoded
    | bool b => cases decoded
    | int i => cases decoded
    | float q => cases decoded
    | arr items => cases decoded
    | obj fields => cases decoded
  b64decodeStrict s := .ok (s.toList.map fun c => UInt8.ofNat c.toNat)
  b64encode bytes := String.ofList (bytes.map fun b => Char.ofNat b.toNat)
  b58decode s := .ok (s.toList.map fun c => UInt8.ofNat c.toNat)
  b58encode bytes := String.ofList (bytes.map fun b => Char.ofNat b.toNat)
  verifyKey _ := .ok ()
  nacl key _ signature := if key = signature then .valid else .badSignature
  parseInt _ := none
  repr _ := ""

def keyNamed (c : Char) : String := String.ofList (List.replicate 32 c)

end Orrery.Chapter
