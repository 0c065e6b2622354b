import Orrery.Foundation.Runs
import Orrery.Chapter.PgStore
import Orrery.Chapter.Sealing

/-! The chapter's signing key (`ensure_chapter_keypair`, server/sovereign_identity.py) over
runs of process boots that share one `chapter_keys` row or one key file. -/
namespace Orrery.Chapter
open Foundation Json Base64 Runs

def sealedSubject : String := "the chapter's Ed25519 signing key"

structure KeyPair where
  privateKey : Bytes
  publicKey : Bytes
deriving DecidableEq

section Boots
variable (cipher : Cipher)

def resealed (environ : Environ) (entropy : Entropy) (stored : String) : Except Exc (Option String) := do
  if ← needsMigration cipher environ stored then
    return some (← sealSecret cipher environ entropy sealedSubject (← unsealSecret cipher environ stored))
  else return none

structure KeyRow where
  secretB64 : String
  publicB64 : String
deriving DecidableEq

inductive KeyWrite
  | post (pair : KeyPair) (secretB64 : String)
  | patch (secretB64 : String)

/-- `ensure_chapter_keypair` on Postgres, up to its write: the pair that it loads from the
store, and the write that it sends. A GET that fails gives `none`. -/
def ensureChapterKeypair (environ : Environ) (entropy : Entropy) (minted : KeyPair) (rows : Option (List KeyRow)) :
    Except Exc (Option KeyPair × Option KeyWrite) := do
  requireSealingConfigured environ sealedSubject
  match rows with
  | some (row :: _) =>
    let privateKey ← b64decode (← unsealSecret cipher environ row.secretB64)
    let publicKey ← b64decode row.publicB64
    let secret ← resealed cipher environ entropy row.secretB64
    return (some ⟨privateKey,publicKey⟩,secret.map .patch)
  | _ =>
    let secret ← sealSecret cipher environ entropy sealedSubject (b64encode minted.privateKey)
    return (none,some (.post minted secret))

/-- Where `_write_key_file` is broken off, by an OSError or by the end of the process. The
mode of the file is left out. -/
inductive Stop
  | opening
  | writing
  | chmod
deriving DecidableEq

variable (floatRepr : ℚ → List Char) (parseFloat : List Char → ℚ)

def keyFileText (secretB64 publicB64 : String) : List Char :=
  dumps floatRepr .plain (.obj [("secret_b64",.str secretB64),("public_b64",.str publicB64)])

def writeKeyFile (stop : Option Stop) (file : Option (List Char)) (secretB64 publicB64 : String) : Option (List Char) :=
  match stop with
  | some .opening => file
  | some .writing => some []
  | some .chmod | none => some (keyFileText floatRepr secretB64 publicB64)

def keyText : Json → Except Exc String
  | .str s => .ok s
  | other =>
    let name := other.typeName
    .error (.typeError s!"argument should be a bytes-like object or ASCII string, not '{name}'")

def storedSecret : Json → Except Exc String
  | .str s => .ok s
  | other =>
    let name := other.typeName
    .error (.attributeError s!"'{name}' object has no attribute 'startswith'")

def ensureKeyFile (environ : Environ) (entropy : Entropy) (minted : KeyPair) (stop : Option Stop)
    (file : Option (List Char)) : Except Exc (Option KeyPair × Option (List Char)) := do
  requireSealingConfigured environ sealedSubject
  match file with
  | some text =>
    match loads parseFloat text with
    | some (.obj d) =>
      let stored ← storedSecret (← item d "secret_b64")
      let privateKey ← b64decode (← unsealSecret cipher environ stored)
      let publicB64 ← keyText (← item d "public_b64")
      let publicKey ← b64decode publicB64
      let secret ← resealed cipher environ entropy stored
      let file := match secret with
        | some secretB64 => writeKeyFile floatRepr stop (some text) secretB64 publicB64
        | none => some text
      return (some ⟨privateKey,publicKey⟩,file)
    | some _ => .error (.typeError "indices must be integers or slices, not str")
    | none => .error (.other "JSONDecodeError" "")
  | none =>
    let secret ← sealSecret cipher environ entropy sealedSubject (b64encode minted.privateKey)
    return (none,writeKeyFile floatRepr stop none secret (b64encode minted.publicKey))

end Boots

section Migration
variable {cipher : Cipher}

theorem resealed_atRest {environ : Environ} {entropy : Entropy} {secrets : List String} {stored next : String}
    {bytes : Bytes} (rests : AtRest cipher secrets stored (b64encode bytes))
    (migrated : resealed cipher environ entropy stored = .ok (some next)) :
    AtRest cipher [keyEncryptionSecret environ] next (b64encode bytes) := by
  obtain ⟨needed,_,migrated⟩ := bind_success _ _ _ migrated
  split at migrated
  · obtain ⟨plaintext,opened,migrated⟩ := bind_success _ _ _ migrated
    obtain ⟨again,sealedAs,same⟩ := bind_success _ _ _ migrated
    obtain rfl : again = next := Option.some.inj (Except.ok.inj same)
    rw [unsealSecret_atRest rests opened] at sealedAs
    exact sealSecret_atRest sealedAs
  · cases Except.ok.inj migrated

theorem resealed_needed {environ : Environ} {entropy : Entropy} {stored next : String}
    (migrated : resealed cipher environ entropy stored = .ok (some next)) :
    needsMigration cipher environ stored = .ok true := by
  obtain ⟨needed,checked,migrated⟩ := bind_success _ _ _ migrated
  split at migrated
  next yes => rw [checked,yes]
  next => cases Except.ok.inj migrated

end Migration

structure KeyLife (σ : Type) where
  store : Option σ
  configured : List String
  loaded : List KeyPair
  first : Option KeyPair

section Permanence
variable {σ : Type} (holds : List String → σ → KeyPair → Prop)

/-- The pair that was stored first is in the store, and no boot loads another. -/
def KeyLife.Permanent (s : KeyLife σ) : Prop :=
  ∀ pair, s.first = some pair →
    (∃ held, s.store = some held ∧ holds s.configured held pair) ∧ ∀ other ∈ s.loaded, other = pair

def KeyLife.Fresh (s : KeyLife σ) : Prop :=
  s.loaded = [] ∧ ((s.first = none ∧ s.store = none) ∨
    ∃ pair held, s.first = some pair ∧ s.store = some held ∧ holds s.configured held pair)

variable {holds}

theorem KeyLife.Fresh.permanent {s : KeyLife σ} (fresh : s.Fresh holds) : s.Permanent holds := by
  intro pair stored
  rw [fresh.1]
  obtain ⟨none,_⟩ | ⟨other,held,first,found,inside⟩ := fresh.2
  · rw [none] at stored
    cases stored
  · rw [first] at stored
    cases stored
    exact ⟨⟨held,found,inside⟩,by simp⟩

theorem KeyLife.Permanent.boot {s s' : KeyLife σ} (permanent : s.Permanent holds) (kept : s'.first = s.first)
    (loads : ∀ pair, s.first = some pair → ∀ other ∈ s'.loaded, other ∈ s.loaded ∨ other = pair)
    (stores : ∀ pair held, s.first = some pair → s.store = some held → holds s.configured held pair →
      ∃ held, s'.store = some held ∧ holds s'.configured held pair) : s'.Permanent holds := by
  intro pair stored
  rw [kept] at stored
  obtain ⟨⟨held,found,inside⟩,same⟩ := permanent pair stored
  refine ⟨stores pair held stored found inside,?_⟩
  intro other loaded
  obtain before | now := loads pair stored other loaded
  · exact same other before
  · exact now

end Permanence

section Table
variable (cipher : Cipher)

def KeyRow.Holds (secrets : List String) (row : KeyRow) (pair : KeyPair) : Prop :=
  row.publicB64 = b64encode pair.publicKey ∧ AtRest cipher secrets row.secretB64 (b64encode pair.privateKey)

/-- The chapter's row with the writes that are on their way to it. -/
structure KeyTable extends KeyLife KeyRow where
  outstanding : List KeyWrite

/-- A boot up to its write, and a write that is carried out or that fails. Boots of
several processes may lie between the two. -/
inductive KeyMove
  | boot (environ : Environ) (entropy : Entropy) (minted : KeyPair) (answered : Bool)
  | land (i : Nat)
  | fail (i : Nat)

def keyBody (chapterId : String) (row : KeyRow) : Dict :=
  [("chapter_id",.str chapterId),("secret_b64",.str row.secretB64),("public_b64",.str row.publicB64)]

theorem keyBody_onConflict (colTypes : List (String × String)) (chapterId : String) (old new : KeyRow) :
    (buildUpsert "chapter_keys" (keyBody chapterId new) ["chapter_id"] []).onConflict colTypes
      (get (keyBody chapterId old)) = get (keyBody chapterId new) := by
  ext column : 1
  rw [onConflict_column (by decide)]
  by_cases chapter : column = "chapter_id"
  · subst chapter
    rfl
  by_cases secret : column = "secret_b64"
  · subst secret
    rfl
  by_cases published : column = "public_b64"
  · subst published
    rfl
  · simp [keyBody,get_cons,chapter,secret,published,Ne.symm chapter,Ne.symm secret,Ne.symm published]

def KeyTable.write (s : KeyTable) : KeyWrite → KeyTable
  | .post pair secretB64 => { s with
      store := some ⟨secretB64,b64encode pair.publicKey⟩
      first := s.first.or (some pair) }
  | .patch secretB64 => { s with store := s.store.map fun row => { row with secretB64 := secretB64 } }

def KeyTable.step (s : KeyTable) : KeyMove → Option KeyTable
  | .boot environ entropy minted answered =>
    match ensureChapterKeypair cipher environ entropy minted (if answered then some s.store.toList else none) with
    | .ok (loaded,write) => some { s with
        configured := keyEncryptionSecret environ :: s.configured
        loaded := loaded.toList ++ s.loaded
        outstanding := s.outstanding ++ write.toList }
    | .error _ => some s
  | .land i => s.outstanding[i]?.map fun write => { s.write write with outstanding := s.outstanding.eraseIdx i }
  | .fail i => s.outstanding[i]?.map fun _ => { s with outstanding := s.outstanding.eraseIdx i }

def InsertsOnly (s : KeyTable) : KeyMove → Prop
  | .land i => ∀ pair secretB64, s.outstanding[i]? = some (.post pair secretB64) → s.store = none
  | _ => True

def KeyWrite.Due (secrets : List String) (first : Option KeyPair) : KeyWrite → Prop
  | .post pair secretB64 => AtRest cipher secrets secretB64 (b64encode pair.privateKey)
  | .patch secretB64 => ∃ pair, first = some pair ∧ AtRest cipher secrets secretB64 (b64encode pair.privateKey)

structure KeyTable.Sound (s : KeyTable) : Prop where
  permanent : s.Permanent (KeyRow.Holds cipher)
  due : ∀ write ∈ s.outstanding, write.Due cipher s.configured s.first
  unstored : s.first = none → s.store = none ∧ s.loaded = []

variable {cipher} {environ : Environ} {entropy : Entropy} {minted : KeyPair}

theorem ensureChapterKeypair_row {secrets : List String} {row : KeyRow} {pair : KeyPair} {loaded : Option KeyPair}
    {write : Option KeyWrite} (inside : row.Holds cipher secrets pair)
    (ran : ensureChapterKeypair cipher environ entropy minted (some [row]) = .ok (loaded,write)) :
    loaded = some pair ∧ ∀ sent ∈ write.toList, ∃ secretB64, sent = .patch secretB64 ∧
      AtRest cipher [keyEncryptionSecret environ] secretB64 (b64encode pair.privateKey) := by
  obtain ⟨_,_,ran⟩ := bind_success _ _ _ ran
  obtain ⟨plaintext,opened,ran⟩ := bind_success _ _ _ ran
  obtain ⟨privateKey,decoded,ran⟩ := bind_success _ _ _ ran
  obtain ⟨publicKey,published,ran⟩ := bind_success _ _ _ ran
  obtain ⟨secret,migrated,ran⟩ := bind_success _ _ _ ran
  rw [unsealSecret_atRest inside.2 opened,b64decode_b64encode] at decoded
  rw [inside.1,b64decode_b64encode] at published
  cases decoded
  cases published
  cases ran
  refine ⟨rfl,?_⟩
  intro sent sending
  cases secret with
  | none => cases sending
  | some secretB64 =>
    obtain rfl : sent = .patch secretB64 := by simpa using sending
    exact ⟨secretB64,rfl,resealed_atRest inside.2 migrated⟩

theorem ensureChapterKeypair_mint {rows : Option (List KeyRow)} {loaded : Option KeyPair} {write : Option KeyWrite}
    (without : rows.getD [] = []) (ran : ensureChapterKeypair cipher environ entropy minted rows = .ok (loaded,write)) :
    loaded = none ∧ ∀ sent ∈ write.toList, ∃ secretB64, sent = .post minted secretB64 ∧
      AtRest cipher [keyEncryptionSecret environ] secretB64 (b64encode minted.privateKey) := by
  obtain ⟨_,_,ran⟩ := bind_success _ _ _ ran
  split at ran
  · cases without
  · obtain ⟨secret,sealedAs,ran⟩ := bind_success _ _ _ ran
    cases ran
    refine ⟨rfl,?_⟩
    intro sent sending
    obtain rfl : sent = .post minted secret := by simpa using sending
    exact ⟨secret,rfl,sealSecret_atRest sealedAs⟩

theorem KeyRow.Holds.mono {secrets more : List String} {row : KeyRow} {pair : KeyPair}
    (inside : row.Holds cipher secrets pair) (further : ∀ kek ∈ secrets, kek ∈ more) : row.Holds cipher more pair :=
  ⟨inside.1,inside.2.mono further⟩

theorem KeyWrite.Due.mono {secrets more : List String} {first later : Option KeyPair} {write : KeyWrite}
    (due : write.Due cipher secrets first) (further : ∀ kek ∈ secrets, kek ∈ more)
    (kept : ∀ pair, first = some pair → later = some pair) : write.Due cipher more later := by
  cases write with
  | post pair secretB64 => exact AtRest.mono due further
  | patch secretB64 =>
    obtain ⟨pair,stored,rests⟩ := due
    exact ⟨pair,kept pair stored,rests.mono further⟩

theorem KeyTable.Sound.ensured {s : KeyTable} {answered : Bool} {loaded : Option KeyPair} {write : Option KeyWrite}
    (sound : s.Sound cipher) (ran : ensureChapterKeypair cipher environ entropy minted
      (if answered then some s.store.toList else none) = .ok (loaded,write)) :
    (∀ pair ∈ loaded, s.first = some pair) ∧
      ∀ sent ∈ write.toList, sent.Due cipher [keyEncryptionSecret environ] s.first := by
  have minting : (if answered then some s.store.toList else none).getD [] = [] →
      (∀ pair ∈ loaded, s.first = some pair) ∧
        ∀ sent ∈ write.toList, sent.Due cipher [keyEncryptionSecret environ] s.first := by
    intro without
    obtain ⟨rfl,posts⟩ := ensureChapterKeypair_mint without ran
    refine ⟨by simp,?_⟩
    intro sent sending
    obtain ⟨secretB64,rfl,rests⟩ := posts sent sending
    exact rests
  cases answered with
  | false => exact minting rfl
  | true =>
    cases stored : s.store with
    | none => exact minting (by rw [stored]; rfl)
    | some row =>
      cases first : s.first with
      | none =>
        rw [(sound.unstored first).1] at stored
        cases stored
      | some pair =>
        obtain ⟨⟨held,found,inside⟩,_⟩ := sound.permanent pair first
        obtain rfl : row = held := Option.some.inj (stored.symm.trans found)
        rw [stored] at ran
        obtain ⟨rfl,patches⟩ := ensureChapterKeypair_row inside ran
        refine ⟨by simp,?_⟩
        intro sent sending
        obtain ⟨secretB64,rfl,rests⟩ := patches sent sending
        exact ⟨pair,rfl,rests⟩

theorem KeyTable.Sound.boot {s s' : KeyTable} {answered : Bool} (sound : s.Sound cipher)
    (next : s.step cipher (.boot environ entropy minted answered) = some s') : s'.Sound cipher := by
  unfold KeyTable.step at next
  dsimp only at next
  split at next
  next loaded write ran =>
    cases next
    obtain ⟨loads,sends⟩ := sound.ensured ran
    have further : ∀ kek ∈ s.configured, kek ∈ keyEncryptionSecret environ :: s.configured :=
      fun kek inside => List.mem_cons_of_mem _ inside
    refine ⟨sound.permanent.boot rfl ?_ ?_,?_,?_⟩
    · intro pair first other inside
      obtain now | before := List.mem_append.mp inside
      · have same := loads other (Option.mem_toList.mp now)
        rw [first] at same
        exact .inr (Option.some.inj same).symm
      · exact .inl before
    · intro pair held _ found inside
      exact ⟨held,found,inside.mono further⟩
    · intro sent sending
      obtain before | now := List.mem_append.mp sending
      · exact (sound.due sent before).mono further fun _ stored => stored
      · apply (sends sent now).mono _ fun _ stored => stored
        intro kek inside
        rw [List.mem_singleton.mp inside]
        exact List.mem_cons_self
    · intro first
      obtain ⟨unstored,unloaded⟩ := sound.unstored first
      cases loaded with
      | none => exact ⟨unstored,unloaded⟩
      | some pair =>
        have stored := loads pair rfl
        rw [first] at stored
        cases stored
  next =>
    cases next
    exact sound

theorem KeyTable.Sound.dropped {s : KeyTable} (sound : s.Sound cipher) (i : Nat) :
    KeyTable.Sound cipher { s with outstanding := s.outstanding.eraseIdx i } :=
  ⟨sound.permanent,fun sent sending => sound.due sent (List.mem_of_mem_eraseIdx sending),sound.unstored⟩

theorem KeyTable.Sound.patched {s : KeyTable} {secretB64 : String} (sound : s.Sound cipher)
    (due : (KeyWrite.patch secretB64).Due cipher s.configured s.first) : (s.write (.patch secretB64)).Sound cipher := by
  obtain ⟨pair,first,rests⟩ := due
  refine ⟨sound.permanent.boot rfl (fun _ _ other inside => .inl inside) ?_,sound.due,?_⟩
  · intro other row stored found inside
    obtain rfl : other = pair := Option.some.inj (stored.symm.trans first)
    refine ⟨{ row with secretB64 := secretB64 },?_,inside.1,rests⟩
    change s.store.map _ = _
    rw [found,Option.map_some]
  · intro none
    change s.first = _ at none
    rw [first] at none
    cases none

theorem KeyTable.Sound.posted {s : KeyTable} {pair : KeyPair} {secretB64 : String} (sound : s.Sound cipher)
    (due : (KeyWrite.post pair secretB64).Due cipher s.configured s.first) (empty : s.store = none) :
    (s.write (.post pair secretB64)).Sound cipher := by
  have unstored : s.first = none := by
    cases first : s.first with
    | none => rfl
    | some other =>
      obtain ⟨⟨held,found,_⟩,_⟩ := sound.permanent other first
      rw [empty] at found
      cases found
  refine ⟨?_,?_,?_⟩
  · intro other stored
    obtain rfl : pair = other := by simpa [KeyTable.write,unstored] using stored
    refine ⟨⟨_,rfl,rfl,due⟩,?_⟩
    change ∀ loaded ∈ s.loaded, _
    rw [(sound.unstored unstored).2]
    simp
  · intro sent sending
    apply (sound.due sent sending).mono fun _ inside => inside
    intro other stored
    rw [unstored] at stored
    cases stored
  · intro none
    simp [KeyTable.write] at none

theorem KeyTable.Sound.step {s s' : KeyTable} {move : KeyMove} (sound : s.Sound cipher) (ok : InsertsOnly s move)
    (next : s.step cipher move = some s') : s'.Sound cipher := by
  cases move with
  | boot environ entropy minted answered => exact sound.boot next
  | land i =>
    obtain ⟨write,found,rfl⟩ := Option.map_eq_some_iff.mp next
    have due := sound.due write (List.mem_of_getElem? found)
    cases write with
    | post pair secretB64 => exact (sound.posted due (ok pair secretB64 found)).dropped i
    | patch secretB64 => exact (sound.patched due).dropped i
  | fail i =>
    obtain ⟨_,_,rfl⟩ := Option.map_eq_some_iff.mp next
    exact sound.dropped i

end Table

section File
variable (cipher : Cipher) (floatRepr : ℚ → List Char) (parseFloat : List Char → ℚ)

def ReadAs (text : List Char) (row : KeyRow) : Prop :=
  ∃ fields, loads parseFloat text = some (.obj fields) ∧ get fields "secret_b64" = some (.str row.secretB64) ∧
    get fields "public_b64" = some (.str row.publicB64)

def FileHolds (secrets : List String) (text : List Char) (pair : KeyPair) : Prop :=
  ∃ row, ReadAs parseFloat text row ∧ row.Holds cipher secrets pair

abbrev KeyFile := KeyLife (List Char)

structure FileBoot where
  environ : Environ
  entropy : Entropy
  minted : KeyPair
  stop : Option Stop

def FileBoot.completes (boot : FileBoot) : Bool := boot.stop = none ∨ boot.stop = some .chmod

def KeyFile.booted (s : KeyFile) (boot : FileBoot) (loaded : Option KeyPair) (file : Option (List Char)) : KeyFile where
  store := file
  configured := keyEncryptionSecret boot.environ :: s.configured
  loaded := loaded.toList ++ s.loaded
  first := if loaded = none ∧ boot.completes then s.first.or (some boot.minted) else s.first

def KeyFile.step (s : KeyFile) (boot : FileBoot) : Option KeyFile :=
  match ensureKeyFile cipher floatRepr parseFloat boot.environ boot.entropy boot.minted boot.stop s.store with
  | .ok (loaded,file) => some (KeyFile.booted s boot loaded file)
  | .error _ => some s

/-- A boot that seals a stored key in place is not stopped between truncating the file and
writing it. -/
def RewritesWhole (s : KeyFile) (boot : FileBoot) : Prop :=
  boot.stop = some .writing → ∀ text row, s.store = some text → ReadAs parseFloat text row →
    needsMigration cipher boot.environ row.secretB64 ≠ .ok true

structure KeyFile.Sound (s : KeyFile) : Prop where
  permanent : s.Permanent (FileHolds cipher parseFloat)
  unstored : s.first = none → (s.store = none ∨ s.store = some []) ∧ s.loaded = []

variable {cipher floatRepr parseFloat} {environ : Environ} {entropy : Entropy} {minted : KeyPair} {stop : Option Stop}

theorem readAs_keyFileText (secretB64 publicB64 : String) :
    ReadAs parseFloat (keyFileText floatRepr secretB64 publicB64) ⟨secretB64,publicB64⟩ := by
  refine ⟨_,loads_dumps_unsorted Layout.plain_readable rfl _ ?_,rfl,rfl⟩
  refine ⟨?_,trivial,trivial,trivial⟩
  simp only [List.map_cons,List.map_nil]
  decide

theorem ensureKeyFile_held {secrets : List String} {text : List Char} {row : KeyRow} {pair : KeyPair}
    {loaded : Option KeyPair} {file : Option (List Char)} (read : ReadAs parseFloat text row)
    (inside : row.Holds cipher secrets pair)
    (whole : stop = some .writing → needsMigration cipher environ row.secretB64 ≠ .ok true)
    (ran : ensureKeyFile cipher floatRepr parseFloat environ entropy minted stop (some text) = .ok (loaded,file)) :
    loaded = some pair ∧ ∃ text, file = some text ∧
      FileHolds cipher parseFloat (keyEncryptionSecret environ :: secrets) text pair := by
  obtain ⟨fields,parsed,secretField,publicField⟩ := read
  obtain ⟨_,_,ran⟩ := bind_success _ _ _ ran
  dsimp only at ran
  rw [parsed] at ran
  obtain ⟨value,found,ran⟩ := bind_success _ _ _ ran
  obtain rfl : Json.str row.secretB64 = value := by simpa [item,secretField] using found
  obtain ⟨stored,same,ran⟩ := bind_success _ _ _ ran
  obtain rfl : row.secretB64 = stored := Except.ok.inj same
  obtain ⟨plaintext,opened,ran⟩ := bind_success _ _ _ ran
  obtain ⟨privateKey,decoded,ran⟩ := bind_success _ _ _ ran
  rw [unsealSecret_atRest inside.2 opened,b64decode_b64encode] at decoded
  obtain rfl : pair.privateKey = privateKey := Except.ok.inj decoded
  obtain ⟨value,found,ran⟩ := bind_success _ _ _ ran
  obtain rfl : Json.str row.publicB64 = value := by simpa [item,publicField] using found
  obtain ⟨publicB64,same,ran⟩ := bind_success _ _ _ ran
  obtain rfl : row.publicB64 = publicB64 := Except.ok.inj same
  obtain ⟨publicKey,published,ran⟩ := bind_success _ _ _ ran
  rw [inside.1,b64decode_b64encode] at published
  obtain rfl : pair.publicKey = publicKey := Except.ok.inj published
  obtain ⟨secret,migrated,ran⟩ := bind_success _ _ _ ran
  obtain ⟨rfl,rfl⟩ := Prod.mk.inj (Except.ok.inj ran)
  refine ⟨rfl,?_⟩
  have untouched : FileHolds cipher parseFloat (keyEncryptionSecret environ :: secrets) text pair :=
    ⟨row,⟨fields,parsed,secretField,publicField⟩,inside.mono fun kek known => List.mem_cons_of_mem _ known⟩
  cases secret with
  | none => exact ⟨text,rfl,untouched⟩
  | some secretB64 =>
    have rewritten : FileHolds cipher parseFloat (keyEncryptionSecret environ :: secrets)
        (keyFileText floatRepr secretB64 row.publicB64) pair := by
      refine ⟨⟨secretB64,row.publicB64⟩,readAs_keyFileText _ _,inside.1,(resealed_atRest inside.2 migrated).mono ?_⟩
      intro kek known
      rw [List.mem_singleton.mp known]
      exact List.mem_cons_self
    cases stop with
    | none => exact ⟨keyFileText floatRepr secretB64 row.publicB64,rfl,rewritten⟩
    | some step =>
      cases step with
      | opening => exact ⟨text,rfl,untouched⟩
      | writing => exact absurd (resealed_needed migrated) (whole rfl)
      | chmod => exact ⟨keyFileText floatRepr secretB64 row.publicB64,rfl,rewritten⟩

theorem ensureKeyFile_mint {loaded : Option KeyPair} {file : Option (List Char)}
    (ran : ensureKeyFile cipher floatRepr parseFloat environ entropy minted stop none = .ok (loaded,file)) :
    loaded = none ∧ (stop = some .opening ∧ file = none ∨ stop = some .writing ∧ file = some [] ∨
      (stop = none ∨ stop = some .chmod) ∧ ∃ text, file = some text ∧
        FileHolds cipher parseFloat [keyEncryptionSecret environ] text minted) := by
  obtain ⟨_,_,ran⟩ := bind_success _ _ _ ran
  obtain ⟨secret,sealedAs,ran⟩ := bind_success _ _ _ ran
  obtain ⟨rfl,rfl⟩ := Prod.mk.inj (Except.ok.inj ran)
  have written : FileHolds cipher parseFloat [keyEncryptionSecret environ]
      (keyFileText floatRepr secret (b64encode minted.publicKey)) minted :=
    ⟨⟨secret,b64encode minted.publicKey⟩,readAs_keyFileText _ _,rfl,sealSecret_atRest sealedAs⟩
  refine ⟨rfl,?_⟩
  cases stop with
  | none => exact .inr (.inr ⟨.inl rfl,keyFileText floatRepr secret (b64encode minted.publicKey),rfl,written⟩)
  | some step =>
    cases step with
    | opening => exact .inl ⟨rfl,rfl⟩
    | writing => exact .inr (.inl ⟨rfl,rfl⟩)
    | chmod => exact .inr (.inr ⟨.inr rfl,keyFileText floatRepr secret (b64encode minted.publicKey),rfl,written⟩)

theorem ensureKeyFile_truncated :
    ∃ e, ensureKeyFile cipher floatRepr parseFloat environ entropy minted stop (some []) = .error e := by
  unfold ensureKeyFile
  cases requireSealingConfigured environ sealedSubject with
  | error e => exact ⟨e,rfl⟩
  | ok _ => exact ⟨_,rfl⟩

theorem KeyFile.Sound.held {s : KeyFile} {boot : FileBoot} {pair : KeyPair} {loaded : Option KeyPair}
    {file : Option (List Char)} (sound : KeyFile.Sound cipher parseFloat s)
    (ok : RewritesWhole cipher parseFloat s boot)
    (first : s.first = some pair) (ran : ensureKeyFile cipher floatRepr parseFloat boot.environ boot.entropy boot.minted
      boot.stop s.store = .ok (loaded,file)) : KeyFile.Sound cipher parseFloat (KeyFile.booted s boot loaded file) := by
  obtain ⟨⟨text,found,row,read,inside⟩,_⟩ := sound.permanent pair first
  rw [found] at ran
  obtain ⟨rfl,holding⟩ := ensureKeyFile_held read inside (fun stopped => ok stopped text row found read) ran
  have kept : (KeyFile.booted s boot (some pair) file).first = s.first := by simp [KeyFile.booted]
  refine ⟨sound.permanent.boot kept ?_ ?_,?_⟩
  · intro other stored loaded inside
    obtain rfl : pair = other := Option.some.inj (first.symm.trans stored)
    obtain now | before := List.mem_append.mp inside
    · exact .inr (by simpa using now)
    · exact .inl before
  · intro other held stored _ _
    obtain rfl : pair = other := Option.some.inj (first.symm.trans stored)
    exact holding
  · intro none
    rw [kept,first] at none
    cases none

theorem KeyFile.Sound.mint {s : KeyFile} {boot : FileBoot} {loaded : Option KeyPair} {file : Option (List Char)}
    (sound : KeyFile.Sound cipher parseFloat s) (first : s.first = none)
    (ran : ensureKeyFile cipher floatRepr parseFloat boot.environ boot.entropy boot.minted boot.stop none =
      .ok (loaded,file)) : KeyFile.Sound cipher parseFloat (KeyFile.booted s boot loaded file) := by
  obtain ⟨_,unloaded⟩ := sound.unstored first
  obtain ⟨rfl,ended⟩ := ensureKeyFile_mint ran
  by_cases whole : boot.completes = true
  · have stored : (KeyFile.booted s boot none file).first = some boot.minted := by simp [KeyFile.booted,whole,first]
    refine ⟨?_,?_⟩
    · intro pair same
      obtain rfl : boot.minted = pair := Option.some.inj (stored.symm.trans same)
      obtain ⟨stopped,_⟩ | ⟨stopped,_⟩ | ⟨_,text,written,row,read,inside⟩ := ended
      · simp [FileBoot.completes,stopped] at whole
      · simp [FileBoot.completes,stopped] at whole
      refine ⟨⟨text,written,row,read,inside.mono ?_⟩,?_⟩
      · intro kek known
        rw [List.mem_singleton.mp known]
        exact List.mem_cons_self
      · intro other inside
        change other ∈ s.loaded at inside
        rw [unloaded] at inside
        cases inside
    · intro none
      rw [stored] at none
      cases none
  · have unstored : (KeyFile.booted s boot none file).first = none := by simp [KeyFile.booted,whole,first]
    refine ⟨?_,?_⟩
    · intro pair same
      rw [unstored] at same
      cases same
    · intro _
      refine ⟨?_,unloaded⟩
      obtain ⟨_,absent⟩ | ⟨_,truncated⟩ | ⟨completed,_⟩ := ended
      · exact .inl absent
      · exact .inr truncated
      · exact absurd (by simpa [FileBoot.completes] using completed) whole

theorem KeyFile.Sound.step {s s' : KeyFile} {boot : FileBoot} (sound : KeyFile.Sound cipher parseFloat s)
    (ok : RewritesWhole cipher parseFloat s boot) (next : KeyFile.step cipher floatRepr parseFloat s boot = some s') :
    KeyFile.Sound cipher parseFloat s' := by
  unfold KeyFile.step at next
  split at next
  next loaded file ran =>
    obtain rfl := Option.some.inj next
    cases first : s.first with
    | some pair => exact sound.held ok first ran
    | none =>
      obtain absent | truncated := (sound.unstored first).1
      · rw [absent] at ran
        exact sound.mint first ran
      · obtain ⟨e,raised⟩ := ensureKeyFile_truncated
        rw [truncated,raised] at ran
        cases ran
  next =>
    obtain rfl := Option.some.inj next
    exact sound

end File

section Opening
variable {cipher : Cipher} {environ : Environ} {entropy : Entropy} {secrets : List String} {stored plaintext : String}
  {row : KeyRow} {pair minted : KeyPair}

theorem ensureChapterKeypair_sends {rows : Option (List KeyRow)} (without : rows.getD [] = [])
    (set : keyEncryptionSecret environ ≠ "") : ensureChapterKeypair cipher environ entropy minted rows =
      .ok (none,some (.post minted (sealedText cipher (encPrefix,pbkdf2Iters) (keyEncryptionSecret environ) entropy
        (b64encode minted.privateKey)))) := by
  unfold ensureChapterKeypair
  rw [requireSealingConfigured_set set,sealSecret_set set]
  simp only [bind,Except.bind]
  split
  · cases without
  · rfl

theorem ensureChapterKeypair_opens {secret : Option String} (set : keyEncryptionSecret environ ≠ "")
    (inside : row.Holds cipher secrets pair) (opened : unsealSecret cipher environ row.secretB64 = .ok plaintext)
    (migrated : resealed cipher environ entropy row.secretB64 = .ok secret) :
    ensureChapterKeypair cipher environ entropy minted (some [row]) = .ok (some pair,secret.map .patch) := by
  obtain rfl := unsealSecret_atRest inside.2 opened
  unfold ensureChapterKeypair
  rw [requireSealingConfigured_set set]
  dsimp only
  rw [opened,inside.1,migrated]
  simp only [bind,Except.bind,b64decode_b64encode]
  rfl

theorem resealed_eq (set : keyEncryptionSecret environ ≠ "") {needed : Bool}
    (checked : needsMigration cipher environ stored = .ok needed)
    (opened : unsealSecret cipher environ stored = .ok plaintext) : resealed cipher environ entropy stored =
      .ok (if needed then some (sealedText cipher (encPrefix,pbkdf2Iters)
        (keyEncryptionSecret environ) entropy plaintext)
        else none) := by
  unfold resealed
  rw [checked,opened]
  cases needed with
  | false => rfl
  | true =>
    simp only [bind,Except.bind,sealSecret_set set]
    rfl

variable {floatRepr : ℚ → List Char} {parseFloat : List Char → ℚ} {stop : Option Stop}

theorem ensureKeyFile_opens {text : List Char} {secret : Option String} (set : keyEncryptionSecret environ ≠ "")
    (read : ReadAs parseFloat text row) (inside : row.Holds cipher secrets pair)
    (opened : unsealSecret cipher environ row.secretB64 = .ok plaintext)
    (migrated : resealed cipher environ entropy row.secretB64 = .ok secret) :
    ensureKeyFile cipher floatRepr parseFloat environ entropy minted stop (some text) = .ok (some pair,
      (secret.map fun secretB64 => writeKeyFile floatRepr stop (some text) secretB64 row.publicB64).getD
        (some text)) := by
  obtain rfl := unsealSecret_atRest inside.2 opened
  obtain ⟨fields,parsed,secretField,publicField⟩ := read
  unfold ensureKeyFile
  rw [requireSealingConfigured_set set]
  dsimp only
  rw [parsed]
  dsimp only
  rw [item,secretField,item,publicField]
  simp only [bind,Except.bind,storedSecret,keyText,opened,inside.1,b64decode_b64encode,migrated]
  cases secret with
  | none => rfl
  | some secretB64 => rfl

end Opening

theorem KeyLife.Fresh.unstored {σ : Type} {holds : List String → σ → KeyPair → Prop} {s : KeyLife σ}
    (fresh : s.Fresh holds)
    (first : s.first = none) : s.store = none ∧ s.loaded = [] := by
  obtain ⟨_,empty⟩ | ⟨pair,held,stored,_⟩ := fresh.2
  · exact ⟨empty,fresh.1⟩
  · rw [first] at stored
    cases stored

/-- The chapter's key is permanent in Postgres if no POST reaches the table while a row is
stored, and in the file if no boot is stopped between truncating a stored key and writing
it again. -/
theorem keypair_permanent (cipher : Cipher) (floatRepr : ℚ → List Char) (parseFloat : List Char → ℚ) :
    (∀ start s : KeyTable, start.Fresh (KeyRow.Holds cipher) → start.outstanding = [] →
      Reached (KeyTable.step cipher) InsertsOnly start s → s.Permanent (KeyRow.Holds cipher)) ∧
    ∀ start s : KeyFile, start.Fresh (FileHolds cipher parseFloat) →
      Reached (KeyFile.step cipher floatRepr parseFloat) (RewritesWhole cipher parseFloat) start s →
      s.Permanent (FileHolds cipher parseFloat) := by
  constructor
  · intro start s fresh idle run
    have initially : start.Sound cipher := by
      refine ⟨fresh.permanent,?_,fresh.unstored⟩
      rw [idle]
      simp
    have sound : s.Sound cipher := run.invariant initially fun _ _ _ sound ok next => sound.step ok next
    exact sound.permanent
  · intro start s fresh run
    have initially : KeyFile.Sound cipher parseFloat start :=
      ⟨fresh.permanent,fun first => ⟨.inl (fresh.unstored first).1,(fresh.unstored first).2⟩⟩
    have sound : KeyFile.Sound cipher parseFloat s :=
      run.invariant initially fun _ _ _ sound ok next => sound.step ok next
    exact sound.permanent

def keySecrets (kek previous : String) : Environ := fun name =>
  if name = keySecretEnv then some kek else if name = previousKeySecretEnv then some previous else none

def fixedEntropy : Entropy := ⟨List.replicate saltLen 7,List.replicate nonceLen 9,rfl,rfl⟩

def pairOf (b : UInt8) : KeyPair := ⟨List.replicate 32 b,List.replicate 32 (b+1)⟩

def emptyTable : KeyTable := ⟨⟨none,[],[],none⟩,[]⟩

def sealedBy (kek : String) (pair : KeyPair) : String :=
  sealedText plainCipher (encPrefix,pbkdf2Iters) kek fixedEntropy (b64encode pair.privateKey)

theorem keySecrets_first : keyEncryptionSecret (keySecrets "first" "") = "first" := by
  decide

theorem keySecrets_second : keyEncryptionSecret (keySecrets "second" "first") = "second" ∧
    previousKeyEncryptionSecret (keySecrets "second" "first") = "first" := by
  decide

def mintingTable (pair : KeyPair) : KeyTable := ⟨⟨none,["first"],[],none⟩,[.post pair (sealedBy "first" pair)]⟩

def mintedTable (pair : KeyPair) : KeyTable :=
  ⟨⟨some ⟨sealedBy "first" pair,b64encode pair.publicKey⟩,["first"],[],some pair⟩,[]⟩

theorem emptyTable_booted (pair : KeyPair) :
    emptyTable.step plainCipher (.boot (keySecrets "first" "") fixedEntropy pair true) = some (mintingTable pair) := by
  simp only [KeyTable.step,emptyTable,Option.toList_none,if_true]
  rw [ensureChapterKeypair_sends rfl (by decide),keySecrets_first]
  rfl

theorem mintingTable_lands (pair : KeyPair) :
    (mintingTable pair).step plainCipher (.land 0) = some (mintedTable pair) := rfl

theorem mintedTable_reached (pair : KeyPair) :
    Reached (KeyTable.step plainCipher) InsertsOnly emptyTable (mintedTable pair) := by
  have booted : Reached (KeyTable.step plainCipher) InsertsOnly emptyTable (mintingTable pair) :=
    .step .start (by exact trivial) (emptyTable_booted pair)
  apply Reached.step booted _ (mintingTable_lands pair)
  intro _ _ _
  rfl

theorem mintedTable_booted (pair : KeyPair) :
    (mintedTable pair).step plainCipher (.boot (keySecrets "second" "first") fixedEntropy (pairOf 2) true) =
      some ⟨⟨(mintedTable pair).store,["second","first"],[pair],some pair⟩,[.patch (sealedBy "second" pair)]⟩ := by
  have set : keyEncryptionSecret (keySecrets "second" "first") ≠ "" := by decide
  have known : (encPrefix,pbkdf2Iters) ∈ itersByPrefix := by decide
  obtain ⟨second,previous⟩ := keySecrets_second
  have opened : unsealSecret plainCipher (keySecrets "second" "first") (sealedBy "first" pair) =
      .ok (b64encode pair.privateKey) :=
    unsealSecret_sealedText known set (.inr ⟨previous,by decide⟩) fixedEntropy
  have needed : needsMigration plainCipher (keySecrets "second" "first") (sealedBy "first" pair) = .ok true := by
    rw [sealedBy,needsMigration_sealedText known "first" set,second,previous]
    rfl
  have inside : KeyRow.Holds plainCipher ["first"] ⟨sealedBy "first" pair,b64encode pair.publicKey⟩ pair :=
    ⟨rfl,.inr ⟨_,known,"first",List.mem_singleton_self _,fixedEntropy,rfl⟩⟩
  simp only [KeyTable.step,mintedTable,Option.toList_some,if_true]
  rw [ensureChapterKeypair_opens set inside opened (resealed_eq set needed opened),second]
  rfl

def unreadTable : KeyTable := { mintedTable (pairOf 1) with
  configured := ["first","first"]
  outstanding := [.post (pairOf 2) (sealedBy "first" (pairOf 2))] }

theorem mintedTable_unread :
    (mintedTable (pairOf 1)).step plainCipher (.boot (keySecrets "first" "") fixedEntropy (pairOf 2) false) =
      some unreadTable := by
  simp only [KeyTable.step]
  rw [ensureChapterKeypair_sends rfl (by decide),keySecrets_first]
  rfl

theorem unreadTable_lands : unreadTable.step plainCipher (.land 0) = some { mintedTable (pairOf 1) with
    store := some ⟨sealedBy "first" (pairOf 2),b64encode (pairOf 2).publicKey⟩
    configured := ["first","first"] } := rfl

def plainFile (floatRepr : ℚ → List Char) (pair : KeyPair) : KeyFile :=
  ⟨some (keyFileText floatRepr (b64encode pair.privateKey) (b64encode pair.publicKey)),[],[],some pair⟩

section PlainFile
variable (floatRepr : ℚ → List Char) (parseFloat : List Char → ℚ) (pair : KeyPair)

theorem plainFile_fresh : (plainFile floatRepr pair).Fresh (FileHolds plainCipher parseFloat) :=
  ⟨rfl,.inr ⟨pair,_,rfl,rfl,⟨_,_⟩,readAs_keyFileText _ _,rfl,.inl rfl⟩⟩

def sealingBoot (stop : Option Stop) : FileBoot := ⟨keySecrets "first" "",fixedEntropy,pairOf 2,stop⟩

theorem plainFile_booted (some_key : pair.privateKey ≠ []) (stop : Option Stop) :
    KeyFile.step plainCipher floatRepr parseFloat (plainFile floatRepr pair) (sealingBoot stop) =
      some ⟨writeKeyFile floatRepr stop (plainFile floatRepr pair).store (sealedBy "first" pair)
        (b64encode pair.publicKey),
        ["first"],[pair],some pair⟩ := by
  have set : keyEncryptionSecret (keySecrets "first" "") ≠ "" := by decide
  have opened : unsealSecret plainCipher (keySecrets "first" "") (b64encode pair.privateKey) =
      .ok (b64encode pair.privateKey) := by
    rw [unsealSecret,if_pos (isSealed_b64encode _)]
  have inside : KeyRow.Holds plainCipher [] ⟨b64encode pair.privateKey,b64encode pair.publicKey⟩ pair := ⟨rfl,.inl rfl⟩
  unfold KeyFile.step
  simp only [plainFile,sealingBoot]
  rw [ensureKeyFile_opens set (readAs_keyFileText _ _) inside opened
    (resealed_eq set (needsMigration_plain set some_key) opened),keySecrets_first]
  simp only [KeyFile.booted,keySecrets_first]
  rfl

end PlainFile

theorem resealed_permanent :
    (∃ s, Reached (KeyTable.step plainCipher) InsertsOnly emptyTable s ∧ s.first = some (pairOf 1) ∧
      s.loaded = [pairOf 1] ∧ s.Permanent (KeyRow.Holds plainCipher)) ∧
    ∃ s, Reached (KeyFile.step plainCipher (fun _ => []) fun _ => 0) (RewritesWhole plainCipher fun _ => 0)
        (plainFile (fun _ => []) (pairOf 1)) s ∧ s.first = some (pairOf 1) ∧ s.loaded = [pairOf 1] ∧
      s.Permanent (FileHolds plainCipher fun _ => 0) := by
  obtain ⟨table,file⟩ := keypair_permanent plainCipher (fun _ => []) fun _ => 0
  constructor
  · have run := Reached.step (mintedTable_reached (pairOf 1)) (by exact trivial) (mintedTable_booted (pairOf 1))
    exact ⟨_,run,rfl,rfl,table _ _ ⟨rfl,.inl ⟨rfl,rfl⟩⟩ rfl run⟩
  · have whole : RewritesWhole plainCipher (fun _ => 0) (plainFile (fun _ => []) (pairOf 1)) (sealingBoot none) := by
      intro stopped
      cases stopped
    have run := Reached.step .start whole (plainFile_booted (fun _ => []) (fun _ => 0) (pairOf 1) (by decide) none)
    exact ⟨_,run,rfl,rfl,file _ _ (plainFile_fresh _ _ _) run⟩

/-- A read that fails is taken for a first boot, and the pair minted there replaces the
stored one; a boot that is stopped after truncating the file leaves no pair in it. -/
theorem keypair_lost :
    (emptyTable.Fresh (KeyRow.Holds plainCipher) ∧ ∃ s, Reached (KeyTable.step plainCipher) Free emptyTable s ∧
      ¬ s.Permanent (KeyRow.Holds plainCipher)) ∧
    (plainFile (fun _ => []) (pairOf 1)).Fresh (FileHolds plainCipher fun _ => 0) ∧
      ∃ s, Reached (KeyFile.step plainCipher (fun _ => []) fun _ => 0) Free (plainFile (fun _ => []) (pairOf 1)) s ∧
        ¬ s.Permanent (FileHolds plainCipher fun _ => 0) := by
  refine ⟨⟨⟨rfl,.inl ⟨rfl,rfl⟩⟩,?_⟩,plainFile_fresh _ _ _,?_⟩
  · have first : Reached (KeyTable.step plainCipher) Free emptyTable (mintedTable (pairOf 1)) :=
      (mintedTable_reached (pairOf 1)).weaken fun _ _ _ => trivial
    refine ⟨_,.step (.step first trivial mintedTable_unread) trivial unreadTable_lands,?_⟩
    intro permanent
    obtain ⟨⟨row,found,published,_⟩,_⟩ := permanent (pairOf 1) rfl
    cases found
    have same := congrArg b64decode published
    rw [b64decode_b64encode,b64decode_b64encode] at same
    exact absurd (Except.ok.inj same) (by decide)
  · refine ⟨_,.step .start trivial (plainFile_booted _ _ (pairOf 1) (by decide) (some .writing)),?_⟩
    intro permanent
    obtain ⟨⟨text,found,row,⟨fields,parsed,_⟩,_⟩,_⟩ := permanent (pairOf 1) rfl
    cases found
    cases parsed

end Orrery.Chapter
