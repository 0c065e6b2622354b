import Mathlib.Algebra.Order.Ring.Abs
import Orrery.Chapter.Identity
import Orrery.Foundation.JsonLines

/-! Who calls (community_member/a2a_auth.py): a request is signed with a key that it brings
along, in a header of its own or inside the did:key of another. -/
namespace Orrery.Tasks
open Foundation Json Chapter

inductive Access
  | openAccess
  | callerRequired
deriving DecidableEq

def methodAccess : List (String × Access) :=
  [("tasks/get",.openAccess),("tasks/resubscribe",.openAccess),("tasks/cancel",.callerRequired),
    ("tasks/send",.callerRequired),("tasks/sendSubscribe",.callerRequired),
    ("nanda/cosignReceipt",.callerRequired),("nanda/legacyTaskCensus",.callerRequired)]

def requiresCaller (method : String) : Bool := (methodAccess.lookup method).getD .callerRequired = .callerRequired

def maxClockSkewS : ℚ := 300

structure CallerIdentity where
  agentId : String
  didKey : String
deriving DecidableEq

structure CallerEnv extends Codec where
  lower : String → String
  available : Bool

section Functions
variable (env : CallerEnv) (headers : List (String × String))

def header (name : String) : Option String :=
  (headers.reverse.find? fun field => env.lower field.1 = name).map Prod.snd

def stripped (name : String) : String :=
  String.ofList (JsonLines.strip ((header env headers name).getD "").toList)

def didKeyBytes (did : String) : Option Bytes :=
  let encoded := if startsWith "did:key:" did then dropStart "did:key:" did else did
  match env.b58decode (String.ofList (encoded.toList.dropWhile (· = 'z'))) with
  | .ok raw => if raw.length ≠ 34 ∨ raw.take 2 ≠ multicodecPrefix then none else some (raw.drop 2)
  | .error _ => none

def publicKeyFromHeaders : String :=
  let direct := stripped env headers "x-agent-public-key"
  let did := stripped env headers "x-agent-did-key"
  if direct ≠ "" then direct
  else if did = "" then ""
  else match didKeyBytes env did with
    | some key => env.b64encode key
    | none => ""

def signedText (body agentId timestamp : String) : String := body ++ ":" ++ agentId ++ ":" ++ timestamp

def verdict (publicKey message signature : String) : Except Exc (Bytes × NaclAnswer) := do
  let key ← env.b64decode (.str publicKey)
  env.verifyKey key
  return (key,env.nacl key message (← env.b64decode (.str signature)))

def verified (body : String) (now : ℚ) : Except Exc (Option (Bytes × CallerIdentity)) :=
  let agentId := stripped env headers "x-agent-id"
  let signature := stripped env headers "x-agent-signature"
  let timestamp := stripped env headers "x-agent-timestamp"
  let scheme := orText ((header env headers "x-agent-sig-scheme").getD "") "ed25519"
  if agentId = "" ∨ signature = "" ∨ timestamp = "" then .ok none
  else if env.lower (String.ofList (JsonLines.strip scheme.toList)) ≠ "ed25519" then .ok none
  else match env.parseInt timestamp with
    | none => .ok none
    | some sentAt =>
      if maxClockSkewS < |now-sentAt| then .ok none
      else
        let publicKey := publicKeyFromHeaders env headers
        if publicKey = "" ∨ env.available = false then .ok none
        else match verdict env publicKey (signedText body agentId timestamp) signature with
          | .ok (key,.valid) => .ok (some (key,⟨agentId,stripped env headers "x-agent-did-key"⟩))
          | .ok (_,.badSignature) => .ok none
          | .ok (_,.raised e) | .error e =>
            match e with
            | .valueError _ | .typeError _ => .ok none
            | _ => .error e

def verifyCaller (body : String) (now : ℚ) : Except Exc (Option CallerIdentity) :=
  (verified env headers body now).map (Option.map Prod.snd)

end Functions

section Lemmas
variable {env : CallerEnv} {headers : List (String × String)} {body : String} {now : ℚ} {key : Bytes}
  {caller : CallerIdentity}

def requestText (env : CallerEnv) (headers : List (String × String)) (body : String) : String :=
  signedText body (stripped env headers "x-agent-id") (stripped env headers "x-agent-timestamp")

structure Verified (env : CallerEnv) (headers : List (String × String)) (body : String) (key : Bytes)
    (caller : CallerIdentity) : Prop where
  decoded : env.b64decode (.str (publicKeyFromHeaders env headers)) = .ok key
  signed : ∃ signature, env.nacl key (requestText env headers body) signature = .valid
  named : caller.didKey = stripped env headers "x-agent-did-key"

theorem verified_ok (ok : verified env headers body now = .ok (some (key,caller))) :
    Verified env headers body key caller := by
  unfold verified at ok
  dsimp only at ok
  split at ok
  next => cases ok
  split at ok
  next => cases ok
  split at ok
  next => cases ok
  split at ok
  next => cases ok
  split at ok
  next => cases ok
  split at ok
  next key' run =>
    obtain ⟨rfl,rfl⟩ := Prod.mk.inj (Option.some.inj (Except.ok.inj ok))
    obtain ⟨key'',decoded,run⟩ := bind_success _ _ _ run
    obtain ⟨_,-,run⟩ := bind_success _ _ _ run
    obtain ⟨signature,-,run⟩ := bind_success _ _ _ run
    obtain ⟨rfl,valid⟩ := Prod.mk.inj (Except.ok.inj run)
    exact ⟨decoded,⟨signature,valid⟩,rfl⟩
  next => cases ok
  next =>
    split at ok <;> cases ok
  next =>
    split at ok <;> cases ok

/-- A request without a key of its own is verified with the one in its did:key. -/
theorem verified_did (decodes : ∀ bytes, env.b64decode (.str (env.b64encode bytes)) = .ok bytes)
    (verified : Verified env headers body key caller) (only : stripped env headers "x-agent-public-key" = "")
    (given : publicKeyFromHeaders env headers ≠ "") : didKeyBytes env caller.didKey = some key := by
  have decoded := verified.decoded
  unfold publicKeyFromHeaders at decoded given
  dsimp only at decoded given
  simp only [only,ne_eq,not_true_eq_false,if_false] at decoded given
  rw [verified.named]
  split at decoded
  next empty => simp [empty] at given
  next did =>
    split at decoded
    next key' own =>
      rw [decodes] at decoded
      rw [own,Except.ok.inj decoded]
    next none =>
      simp [did,none] at given

end Lemmas

end Orrery.Tasks
