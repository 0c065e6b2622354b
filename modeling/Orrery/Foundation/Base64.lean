import Orrery.Foundation.Json

/-! Bytes as base64 text: `b64encode`, and `b64decode` as binascii reads when it is not
strict, skipping what is not in the alphabet. -/
namespace Orrery.Foundation.Base64
open Json

def alphabet : List Char := "ABCDEFGHIJKLMNOPQRSTUVWXYZabcdefghijklmnopqrstuvwxyz0123456789+/".toList

def digit (n : Nat) : Char := alphabet.getD n 'A'

def digitValue (c : Char) : Option Nat := alphabet.idxOf? c

theorem alphabet_chars : alphabet = ['A','B','C','D','E','F','G','H','I','J','K','L','M','N','O','P','Q','R','S','T',
    'U','V','W','X','Y','Z','a','b','c','d','e','f','g','h','i','j','k','l','m','n','o','p','q','r','s','t','u','v',
    'w','x','y','z','0','1','2','3','4','5','6','7','8','9','+','/'] :=
  String.toList_ofList

theorem alphabet_codes : alphabet.map Char.toNat = [65,66,67,68,69,70,71,72,73,74,75,76,77,78,79,80,81,82,83,84,85,86,
    87,88,89,90,97,98,99,100,101,102,103,104,105,106,107,108,109,110,111,112,113,114,115,116,117,118,119,120,121,122,
    48,49,50,51,52,53,54,55,56,57,43,47] := by
  rw [alphabet_chars]
  rfl

theorem alphabet_length : alphabet.length = 64 := by
  rw [alphabet_chars]
  rfl

theorem alphabet_nodup : alphabet.Nodup := by
  apply List.Nodup.of_map Char.toNat
  rw [alphabet_codes]
  decide

theorem alphabet_digit (n : Nat) (small : n < 64) : alphabet[n]? = some (digit n) := by
  rw [digit,List.getD_eq_getElem?_getD,List.getElem?_eq_getElem (alphabet_length ▸ small),Option.getD_some]

theorem digitValue_digit (n : Nat) (small : n < 64) : digitValue (digit n) = some n := by
  have bound : n < alphabet.length := alphabet_length ▸ small
  obtain ⟨_,same⟩ := List.getElem?_eq_some_iff.mp (alphabet_digit n small)
  rw [digitValue,← same,List.idxOf?_eq_some_iff]
  refine ⟨bound,rfl,fun i before same => ?_⟩
  have := alphabet_nodup.getElem_inj_iff.mp same
  omega

theorem digit_mem (n : Nat) (small : n < 64) : digit n ∈ alphabet := List.mem_of_getElem? (alphabet_digit n small)

def encodeChars : List UInt8 → List Char
  | [] => []
  | [a] => [digit (a.toNat/4),digit (a.toNat%4*16),'=','=']
  | [a,b] => [digit (a.toNat/4),digit (a.toNat%4*16+b.toNat/16),digit (b.toNat%16*4),'=']
  | a :: b :: c :: rest =>
    digit (a.toNat/4) :: digit (a.toNat%4*16+b.toNat/16) :: digit (b.toNat%16*4+c.toNat/64) :: digit (c.toNat%64) ::
      encodeChars rest

def b64encode (bytes : List UInt8) : String := String.ofList (encodeChars bytes)

inductive Group
  | empty
  | one (left : Nat)
  | two (left : Nat) (padded : Bool)
  | three (left : Nat)

def incorrectPadding : Exc := .other "Error" "Incorrect padding"

def oneMore (groups : Nat) : Exc :=
  let count := 4*groups+1
  .other "Error"
    s!"Invalid base64-encoded string: number of data characters ({count}) cannot be 1 more than a multiple of 4"

def decodeChars : Nat → Group → List Char → Except Exc (List UInt8)
  | _, .empty, [] => .ok []
  | groups, .one _, [] => .error (oneMore groups)
  | _, .two _ _, [] => .error incorrectPadding
  | _, .three _, [] => .error incorrectPadding
  | groups, group, c :: rest =>
    match digitValue c, group with
    | none, .two left false =>
      if c = '=' then decodeChars groups (.two left true) rest else decodeChars groups group rest
    | none, .two _ true => if c = '=' then .ok [] else decodeChars groups group rest
    | none, .three _ => if c = '=' then .ok [] else decodeChars groups group rest
    | none, _ => decodeChars groups group rest
    | some v, .empty => decodeChars groups (.one v) rest
    | some v, .one left => do return UInt8.ofNat (left*4+v/16) :: (← decodeChars groups (.two (v%16) false) rest)
    | some v, .two left _ => do return UInt8.ofNat (left*16+v/4) :: (← decodeChars groups (.three (v%4)) rest)
    | some v, .three left => do return UInt8.ofNat (left*64+v) :: (← decodeChars (groups+1) .empty rest)

def b64decode (text : String) : Except Exc (List UInt8) :=
  if text.toList.all (·.toNat < 128) then decodeChars 0 .empty text.toList
  else .error (.valueError "string argument should contain only ASCII characters")

section Reading
variable {groups left n : Nat} {padded : Bool} {rest : List Char}

theorem decodeChars_first (small : n < 64) :
    decodeChars groups .empty (digit n :: rest) = decodeChars groups (.one n) rest := by
  rw [decodeChars.eq_def]
  dsimp only
  rw [digitValue_digit n small]

theorem decodeChars_second (small : n < 64) : decodeChars groups (.one left) (digit n :: rest) =
    do return UInt8.ofNat (left*4+n/16) :: (← decodeChars groups (.two (n%16) false) rest) := by
  rw [decodeChars.eq_def]
  dsimp only
  rw [digitValue_digit n small]

theorem decodeChars_third (small : n < 64) : decodeChars groups (.two left padded) (digit n :: rest) =
    do return UInt8.ofNat (left*16+n/4) :: (← decodeChars groups (.three (n%4)) rest) := by
  rw [decodeChars.eq_def]
  dsimp only
  rw [digitValue_digit n small]

theorem decodeChars_fourth (small : n < 64) : decodeChars groups (.three left) (digit n :: rest) =
    do return UInt8.ofNat (left*64+n) :: (← decodeChars (groups+1) .empty rest) := by
  rw [decodeChars.eq_def]
  dsimp only
  rw [digitValue_digit n small]

end Reading

theorem first_byte (a b : UInt8) : UInt8.ofNat (a.toNat/4*4+(a.toNat%4*16+b.toNat/16)/16) = a := by
  have bound := b.toNat_lt
  rw [show a.toNat/4*4+(a.toNat%4*16+b.toNat/16)/16 = a.toNat by omega,UInt8.ofNat_toNat]

theorem second_byte (a b c : UInt8) :
    UInt8.ofNat ((a.toNat%4*16+b.toNat/16)%16*16+(b.toNat%16*4+c.toNat/64)/4) = b := by
  have first := b.toNat_lt
  have second := c.toNat_lt
  rw [show (a.toNat%4*16+b.toNat/16)%16*16+(b.toNat%16*4+c.toNat/64)/4 = b.toNat by omega,UInt8.ofNat_toNat]

theorem third_byte (b c : UInt8) : UInt8.ofNat ((b.toNat%16*4+c.toNat/64)%4*64+c.toNat%64) = c := by
  have bound := c.toNat_lt
  rw [show (b.toNat%16*4+c.toNat/64)%4*64+c.toNat%64 = c.toNat by omega,UInt8.ofNat_toNat]

theorem decodeChars_encodeChars (bytes : List UInt8) : ∀ groups,
    decodeChars groups .empty (encodeChars bytes) = .ok bytes := by
  induction bytes using encodeChars.induct with
  | case1 =>
    intro groups
    rfl
  | case2 a =>
    intro groups
    have bound := a.toNat_lt
    have whole := first_byte a 0
    rw [show (0 : UInt8).toNat = 0 from rfl,Nat.zero_div,Nat.add_zero] at whole
    rw [encodeChars,decodeChars_first (by omega),decodeChars_second (by omega),whole]
    rfl
  | case3 a b =>
    intro groups
    have bound := a.toNat_lt
    have next := b.toNat_lt
    have whole := second_byte a b 0
    rw [show (0 : UInt8).toNat = 0 from rfl,Nat.zero_div,Nat.add_zero] at whole
    rw [encodeChars,decodeChars_first (by omega),decodeChars_second (by omega),decodeChars_third (by omega),
      first_byte,whole]
    rfl
  | case4 a b c rest ih =>
    intro groups
    have bound := a.toNat_lt
    have next := b.toNat_lt
    have last := c.toNat_lt
    rw [encodeChars,decodeChars_first (by omega),decodeChars_second (by omega),decodeChars_third (by omega),
      decodeChars_fourth (by omega),first_byte,second_byte,third_byte,ih]
    rfl

theorem encodeChars_mem (bytes : List UInt8) : ∀ c ∈ encodeChars bytes, c = '=' ∨ c ∈ alphabet := by
  induction bytes using encodeChars.induct with
  | case1 =>
    intro c inside
    cases inside
  | case2 a =>
    have bound := a.toNat_lt
    simp only [encodeChars,List.forall_mem_cons]
    exact ⟨.inr (digit_mem _ (by omega)),.inr (digit_mem _ (by omega)),.inl trivial,.inl trivial,by simp⟩
  | case3 a b =>
    have bound := a.toNat_lt
    have next := b.toNat_lt
    simp only [encodeChars,List.forall_mem_cons]
    exact ⟨.inr (digit_mem _ (by omega)),.inr (digit_mem _ (by omega)),.inr (digit_mem _ (by omega)),.inl trivial,
      by simp⟩
  | case4 a b c rest ih =>
    have bound := a.toNat_lt
    have next := b.toNat_lt
    have last := c.toNat_lt
    simp only [encodeChars,List.forall_mem_cons]
    exact ⟨.inr (digit_mem _ (by omega)),.inr (digit_mem _ (by omega)),.inr (digit_mem _ (by omega)),
      .inr (digit_mem _ (by omega)),ih⟩

theorem alphabet_plain : ∀ c ∈ '=' :: alphabet, c.toNat < 128 ∧ c ≠ ':' := by
  have codes : ∀ code ∈ ('=' :: alphabet).map Char.toNat, code < 128 ∧ code ≠ ':'.toNat := by
    rw [List.map_cons,alphabet_codes]
    decide
  intro c inside
  obtain ⟨low,other⟩ := codes c.toNat (List.mem_map_of_mem inside)
  exact ⟨low,fun same => other (congrArg Char.toNat same)⟩

theorem b64encode_plain (bytes : List UInt8) : ∀ c ∈ (b64encode bytes).toList, c.toNat < 128 ∧ c ≠ ':' := by
  intro c inside
  rw [b64encode,String.toList_ofList] at inside
  apply alphabet_plain c
  simpa using encodeChars_mem bytes c inside

theorem b64decode_b64encode (bytes : List UInt8) : b64decode (b64encode bytes) = .ok bytes := by
  have ascii : (b64encode bytes).toList.all (·.toNat < 128) = true := by
    rw [List.all_eq_true]
    intro c inside
    simpa using (b64encode_plain bytes c inside).1
  rw [b64decode,if_pos ascii,b64encode,String.toList_ofList,decodeChars_encodeChars]

end Orrery.Foundation.Base64
