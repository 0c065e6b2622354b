import Mathlib.Algebra.Order.Field.Rat
import Mathlib.Data.List.Lex
import Mathlib.Data.String.Basic
import Mathlib.Tactic.Linarith

/-! Timestamps as RFC 3339 writes them, and the instants they stand for: seconds since the
year 0, of which fractions may follow. Leap seconds have no instant of their own and are
not read. -/
namespace Orrery.Foundation.Timestamps

section Calendar

def isLeap (year : ℕ) : Bool := year % 4 == 0 && (year % 100 != 0 || year % 400 == 0)

def monthLength (year month : ℕ) : ℕ :=
  if month = 2 then if isLeap year then 29 else 28
  else if month = 4 ∨ month = 6 ∨ month = 9 ∨ month = 11 then 30
  else 31

def daysOfMonths (year : ℕ) : ℕ → ℕ
  | 0 => 0
  | month+1 => daysOfMonths year month + monthLength year (month+1)

def daysBefore (year : ℕ) : ℕ := 365 * year + (year+3)/4 - (year+99)/100 + (year+399)/400

theorem daysOfYear (year : ℕ) : daysOfMonths year 12 = if isLeap year then 366 else 365 := by
  simp only [daysOfMonths,monthLength]
  cases isLeap year <;> rfl

theorem daysBefore_succ (year : ℕ) : daysBefore (year+1) = daysBefore year + daysOfMonths year 12 := by
  have fours : (year+1+3)/4 = (year+3)/4 + if year % 4 = 0 then 1 else 0 := by split <;> omega
  have hundreds : (year+1+99)/100 = (year+99)/100 + if year % 100 = 0 then 1 else 0 := by split <;> omega
  have cycles : (year+1+399)/400 = (year+399)/400 + if year % 400 = 0 then 1 else 0 := by split <;> omega
  have fewer : (year+99)/100 ≤ (year+3)/4 := by omega
  have leap : (if isLeap year then 366 else 365) + (if year % 100 = 0 then 1 else 0) =
      365 + (if year % 4 = 0 then 1 else 0) + if year % 400 = 0 then 1 else 0 := by
    have even : year % 100 = 0 → year % 4 = 0 := by omega
    have whole : year % 400 = 0 → year % 100 = 0 := by omega
    unfold isLeap
    grind
  rw [daysOfYear,daysBefore,daysBefore,fours,hundreds,cycles]
  omega

theorem daysBefore_mono {first second : ℕ} (earlier : first ≤ second) : daysBefore first ≤ daysBefore second := by
  induction earlier with
  | refl => exact le_refl _
  | step _ ih =>
    rw [Nat.succ_eq_add_one,daysBefore_succ]
    omega

theorem daysOfMonths_mono (year : ℕ) {first second : ℕ} (earlier : first ≤ second) :
    daysOfMonths year first ≤ daysOfMonths year second := by
  induction earlier with
  | refl => exact le_refl _
  | step _ ih =>
    rw [Nat.succ_eq_add_one,daysOfMonths]
    omega

end Calendar

structure Stamp where
  year : ℕ
  month : ℕ
  day : ℕ
  hour : ℕ
  minute : ℕ
  second : ℕ
  /-- The digits of the fraction of a second. -/
  fraction : List ℕ
  /-- Minutes east of UTC. -/
  offset : ℤ

def fractionValue : List ℕ → ℚ
  | [] => 0
  | d :: rest => (d + fractionValue rest) / 10

namespace Stamp
variable (s : Stamp)

def days : ℕ := daysBefore s.year + daysOfMonths s.year (s.month-1) + (s.day-1)

def seconds : ℤ := (s.days*86400 + ((s.hour*60 + s.minute)*60 + s.second) : ℕ) - 60 * s.offset

def instant : ℚ := s.seconds + fractionValue s.fraction

def Valid : Prop := (1 ≤ s.month ∧ s.month ≤ 12) ∧ (1 ≤ s.day ∧ s.day ≤ monthLength s.year s.month) ∧
  s.hour < 24 ∧ s.minute < 60 ∧ s.second < 60 ∧ ∀ d ∈ s.fraction, d < 10

instance : Decidable s.Valid := inferInstanceAs (Decidable (_ ∧ _))

def Current : Prop := 0 ≤ s.seconds ∧ s.seconds < (daysBefore 10000 * 86400 : ℕ)

instance : Decidable s.Current := inferInstanceAs (Decidable (_ ∧ _))

end Stamp

section Order

theorem fractionValue_nonneg (digits : List ℕ) : 0 ≤ fractionValue digits := by
  induction digits with
  | nil => exact le_refl _
  | cons d rest ih =>
    exact div_nonneg (add_nonneg (Nat.cast_nonneg d) ih) (by norm_num)

theorem fractionValue_lt_one {digits : List ℕ} (small : ∀ d ∈ digits, d < 10) : fractionValue digits < 1 := by
  induction digits with
  | nil => exact zero_lt_one
  | cons d rest ih =>
    have here : (d : ℚ) ≤ 9 := by exact_mod_cast Nat.le_of_lt_succ (small d (by simp))
    have later := ih fun e inside => small e (by simp [inside])
    unfold fractionValue
    linarith

theorem fractionValue_lt {first : List ℕ} : ∀ {second}, first.length = second.length → (∀ d ∈ first, d < 10) →
    first < second → fractionValue first < fractionValue second := by
  induction first with
  | nil =>
    intro second same _ less
    rw [List.length_eq_zero_iff.mp same.symm] at less
    exact absurd less (lt_irrefl _)
  | cons d first ih =>
    intro second same small less
    cases second with
    | nil => simp at same
    | cons e second =>
      have inner : ∀ d ∈ first, d < 10 := fun d inside => small d (by simp [inside])
      unfold fractionValue
      rcases List.cons_lt_cons_iff.mp less with smaller | ⟨rfl,later⟩
      · have step : (d : ℚ) + 1 ≤ e := by exact_mod_cast smaller
        have below := fractionValue_lt_one inner
        have above := fractionValue_nonneg second
        linarith
      · have later := ih (by simpa using same) inner later
        linarith

variable {s s' : Stamp}

theorem days_lt (valid : s.Valid) (valid' : s'.Valid)
    (less : s.year < s'.year ∨ s.year = s'.year ∧ (s.month < s'.month ∨ s.month = s'.month ∧ s.day < s'.day)) :
    s.days < s'.days := by
  obtain ⟨⟨_,month⟩,⟨_,day⟩,_⟩ := valid
  obtain ⟨⟨first',_⟩,⟨first,_⟩,_⟩ := valid'
  have within : daysOfMonths s.year (s.month-1) + (s.day-1) < daysOfMonths s.year s.month := by
    obtain ⟨m,hm⟩ : ∃ m, s.month = m+1 := ⟨s.month-1,by omega⟩
    rw [hm] at day ⊢
    rw [Nat.add_sub_cancel,daysOfMonths]
    omega
  unfold Stamp.days
  rcases less with years | ⟨year,months | ⟨month',days⟩⟩
  · have whole := daysOfMonths_mono s.year month
    have next := daysBefore_mono years
    rw [Nat.succ_eq_add_one,daysBefore_succ] at next
    omega
  · have next := daysOfMonths_mono s.year (show s.month ≤ s'.month-1 by omega)
    rw [← year]
    omega
  · rw [← year,← month']
    omega

end Order

section Reading

def digitOf (c : Char) : Option ℕ := if c.isDigit then some (c.toNat-48) else none

def number : ℕ → List Char → Option (ℕ × List Char)
  | 0, text => some (0,text)
  | _+1, [] => none
  | w+1, c :: text =>
    match digitOf c, number w text with
    | some d, some (n,rest) => some (d*10^w + n,rest)
    | _, _ => none

def expect (p : Char → Bool) : List Char → Option (List Char)
  | [] => none
  | c :: rest => if p c then some rest else none

def readFraction : List Char → Option (List ℕ × List Char)
  | '.' :: text =>
    let digits := text.takeWhile Char.isDigit
    if digits = [] then none else some (digits.map fun c => c.toNat-48,text.dropWhile Char.isDigit)
  | text => some ([],text)

def readOffset (sign : Char) (text : List Char) : Option ℤ := do
  let (hours,text) ← number 2 text
  let text ← expect (· == ':') text
  let (minutes,text) ← number 2 text
  if text ≠ [] ∨ ¬(hours < 24 ∧ minutes < 60) then none
  else if sign = '+' then some (hours*60 + minutes : ℕ)
  else if sign = '-' then some (-(hours*60 + minutes : ℕ))
  else none

def readZone : List Char → Option ℤ
  | [] => none
  | c :: text => if (c = 'Z' ∨ c = 'z') ∧ text = [] then some 0 else readOffset c text

def readStamp (text : List Char) : Option Stamp := do
  let (year,text) ← number 4 text
  let text ← expect (· == '-') text
  let (month,text) ← number 2 text
  let text ← expect (· == '-') text
  let (day,text) ← number 2 text
  let text ← expect (fun c => c == 'T' || c == 't') text
  let (hour,text) ← number 2 text
  let text ← expect (· == ':') text
  let (minute,text) ← number 2 text
  let text ← expect (· == ':') text
  let (second,text) ← number 2 text
  let (fraction,text) ← readFraction text
  let offset ← readZone text
  return ⟨year,month,day,hour,minute,second,fraction,offset⟩

def instant (text : String) : Option ℚ :=
  match readStamp text.toList with
  | some s => if s.Valid ∧ s.Current then some s.instant else none
  | none => none

end Reading

section Writing

def digitChar (d : ℕ) : Char := Char.ofNat (48+d)

def pad : ℕ → ℕ → List Char
  | 0, _ => []
  | w+1, n => digitChar (n / 10^w) :: pad w (n % 10^w)

def Stamp.utcText (s : Stamp) : List Char :=
  pad 4 s.year ++ '-' :: (pad 2 s.month ++ '-' :: (pad 2 s.day ++ 'T' :: (pad 2 s.hour ++ ':' ::
    (pad 2 s.minute ++ ':' :: (pad 2 s.second ++ '.' :: (s.fraction.map digitChar ++ ['Z']))))))

theorem digitOf_digitChar : ∀ d < 10, digitOf (digitChar d) = some d := by decide

theorem digitChar_lt : ∀ d < 10, ∀ e < 10, d < e → digitChar d < digitChar e := by decide

theorem number_pad (rest : List Char) (w : ℕ) : ∀ {n}, n < 10^w → number w (pad w n ++ rest) = some (n,rest) := by
  induction w with
  | zero =>
    intro n below
    obtain rfl : n = 0 := by omega
    rfl
  | succ w ih =>
    intro n below
    have high : n / 10^w < 10 := by
      rw [pow_succ] at below
      exact Nat.div_lt_of_lt_mul below
    have low : n % 10^w < 10^w := Nat.mod_lt n (by positivity)
    rw [pad,List.cons_append,number,digitOf_digitChar _ high,ih low]
    simp [Nat.div_add_mod']

theorem pad_lt (first second : List Char) (w : ℕ) : ∀ {m n}, n < 10^w → m < n →
    pad w m ++ first < pad w n ++ second := by
  induction w with
  | zero =>
    intro m n below less
    omega
  | succ w ih =>
    intro m n below less
    have high : n / 10^w < 10 := by
      rw [pow_succ] at below
      exact Nat.div_lt_of_lt_mul below
    have low : n % 10^w < 10^w := Nat.mod_lt n (by positivity)
    rw [pad,pad,List.cons_append,List.cons_append,List.cons_lt_cons_iff]
    rcases (Nat.div_le_div_right (c := 10^w) less.le).lt_or_eq with smaller | same
    · exact .inl (digitChar_lt _ (by omega) _ high smaller)
    · refine .inr ⟨by rw [same],ih low ?_⟩
      have first := Nat.div_add_mod m (10^w)
      have second := Nat.div_add_mod n (10^w)
      rw [same] at first
      omega

theorem pad_lex {first second : List Char} {w m n : ℕ} (below : n < 10^w) (less : m < n ∨ m = n ∧ first < second) :
    pad w m ++ first < pad w n ++ second := by
  rcases less with smaller | ⟨rfl,later⟩
  · exact pad_lt first second w below smaller
  · exact List.append_left_lt later

theorem digits_lt (first second : List Char) {ds : List ℕ} : ∀ {es}, ds.length = es.length → (∀ d ∈ ds, d < 10) →
    (∀ e ∈ es, e < 10) → ds < es → ds.map digitChar ++ first < es.map digitChar ++ second := by
  induction ds with
  | nil =>
    intro es same _ _ less
    rw [List.length_eq_zero_iff.mp same.symm] at less
    exact absurd less (lt_irrefl _)
  | cons d ds ih =>
    intro es same small small' less
    cases es with
    | nil => simp at same
    | cons e es =>
      rw [List.map_cons,List.map_cons,List.cons_append,List.cons_append,List.cons_lt_cons_iff]
      rcases List.cons_lt_cons_iff.mp less with smaller | ⟨rfl,later⟩
      · exact .inl (digitChar_lt d (small d (by simp)) e (small' e (by simp)) smaller)
      · exact .inr ⟨rfl,ih (by simpa using same) (fun x inside => small x (by simp [inside]))
          (fun x inside => small' x (by simp [inside])) later⟩

theorem readFraction_digits {digits : List ℕ} (some : digits ≠ []) (small : ∀ d ∈ digits, d < 10) :
    readFraction ('.' :: (digits.map digitChar ++ ['Z'])) = .some (digits,['Z']) := by
  have char : ∀ d < 10, (digitChar d).isDigit = true ∧ (digitChar d).toNat - 48 = d := by decide
  have all : ∀ c ∈ digits.map digitChar, c.isDigit = true := by
    intro c inside
    obtain ⟨d,member,rfl⟩ := List.mem_map.mp inside
    exact (char d (small d member)).1
  have back : (digits.map digitChar).map (fun c => c.toNat-48) = digits := by
    rw [List.map_map]
    refine (List.map_congr_left fun d member => (char d (small d member)).2).trans (List.map_id digits)
  have taken : (digits.map digitChar ++ ['Z']).takeWhile Char.isDigit = digits.map digitChar := by
    rw [List.takeWhile_append_of_pos all]
    simp
  have left : (digits.map digitChar ++ ['Z']).dropWhile Char.isDigit = ['Z'] := by
    rw [List.dropWhile_append_of_pos all]
    rfl
  simp only [readFraction,taken,left,back,List.map_eq_nil_iff,some,if_false]

structure Stamp.Utc (n : ℕ) (s : Stamp) : Prop where
  valid : s.Valid
  year : s.year < 10^4
  offset : s.offset = 0
  length : s.fraction.length = n+1

variable {n : ℕ} {s s' : Stamp}

theorem Stamp.Utc.widths (utc : s.Utc n) :
    s.month < 10^2 ∧ s.day < 10^2 ∧ s.hour < 10^2 ∧ s.minute < 10^2 ∧ s.second < 10^2 := by
  obtain ⟨⟨⟨_,month⟩,⟨_,day⟩,hour,minute,second,_⟩,_⟩ := utc
  have days : monthLength s.year s.month ≤ 31 := by
    unfold monthLength
    split <;> split <;> omega
  omega

theorem readStamp_utcText (utc : s.Utc n) : readStamp s.utcText = some s := by
  obtain ⟨month,day,hour,minute,second⟩ := utc.widths
  have some : s.fraction ≠ [] := by
    intro none
    have length := utc.length
    simp [none] at length
  unfold readStamp Stamp.utcText
  simp only [number_pad _ 4 utc.year,number_pad _ 2 month,number_pad _ 2 day,number_pad _ 2 hour,number_pad _ 2 minute,
    number_pad _ 2 second,readFraction_digits some utc.valid.2.2.2.2.2,expect,readZone,bind,Option.bind,pure,
    beq_self_eq_true,Bool.true_or,if_true,true_or,and_self]
  rw [← utc.offset]

def Stamp.Before (s s' : Stamp) : Prop :=
  s.year < s'.year ∨ s.year = s'.year ∧ (s.month < s'.month ∨ s.month = s'.month ∧ (s.day < s'.day ∨ s.day = s'.day ∧
    (s.hour < s'.hour ∨ s.hour = s'.hour ∧ (s.minute < s'.minute ∨ s.minute = s'.minute ∧
      (s.second < s'.second ∨ s.second = s'.second ∧ s.fraction < s'.fraction)))))

theorem before_cases (zone : s.offset = s'.offset) : s.Before s' ∨ s = s' ∨ s'.Before s := by
  cases s
  cases s'
  simp only [Stamp.Before,Stamp.mk.injEq] at zone ⊢
  grind

theorem Stamp.Before.text (before : s.Before s') (utc : s.Utc n) (utc' : s'.Utc n) : s.utcText < s'.utcText := by
  obtain ⟨month,day,hour,minute,second⟩ := utc'.widths
  have next : ∀ {c : Char} {first second : List Char}, first < second → c :: first < c :: second := fun less =>
    List.cons_lt_cons_iff.mpr (.inr ⟨rfl,less⟩)
  unfold Stamp.utcText
  refine pad_lex utc'.year (before.imp_right (And.imp_right fun before => next ?_))
  refine pad_lex month (before.imp_right (And.imp_right fun before => next ?_))
  refine pad_lex day (before.imp_right (And.imp_right fun before => next ?_))
  refine pad_lex hour (before.imp_right (And.imp_right fun before => next ?_))
  refine pad_lex minute (before.imp_right (And.imp_right fun before => next ?_))
  refine pad_lex second (before.imp_right (And.imp_right fun before => next ?_))
  exact digits_lt _ _ (utc.length.trans utc'.length.symm) utc.valid.2.2.2.2.2 utc'.valid.2.2.2.2.2 before

theorem Stamp.Before.instant (before : s.Before s') (utc : s.Utc n) (utc' : s'.Utc n) : s.instant < s'.instant := by
  have seconds : s.seconds < s'.seconds ∨ s.seconds = s'.seconds ∧ s.fraction < s'.fraction := by
    obtain ⟨_,_,hour,minute,second,_⟩ := utc.valid
    unfold Stamp.seconds
    rw [utc.offset,utc'.offset]
    by_cases date : s.year = s'.year ∧ s.month = s'.month ∧ s.day = s'.day
    · have days : s.days = s'.days := by
        rw [Stamp.days,Stamp.days,date.1,date.2.1,date.2.2]
      obtain ⟨year,month,day⟩ := date
      simp only [Stamp.Before,year,month,day,lt_irrefl,false_or,true_and] at before
      rcases before with hours | ⟨hours,minutes | ⟨minutes,seconds | ⟨seconds,fraction⟩⟩⟩
      · left
        omega
      · left
        omega
      · left
        omega
      · right
        rw [days,hours,minutes,seconds]
        exact ⟨rfl,fraction⟩
    · have days : s.days < s'.days := by
        refine days_lt utc.valid utc'.valid ?_
        unfold Stamp.Before at before
        tauto
      left
      omega
  have below := fractionValue_lt_one utc.valid.2.2.2.2.2
  have above := fractionValue_nonneg s'.fraction
  unfold Stamp.instant
  rcases seconds with less | ⟨same,less⟩
  · have step : (s.seconds : ℚ) + 1 ≤ s'.seconds := by exact_mod_cast less
    linarith
  · have later := fractionValue_lt (utc.length.trans utc'.length.symm) utc.valid.2.2.2.2.2 less
    rw [same]
    linarith

theorem utc_le (utc : s.Utc n) (utc' : s'.Utc n) (le : s.instant ≤ s'.instant) : s.utcText ≤ s'.utcText := by
  rcases before_cases (utc.offset.trans utc'.offset.symm) with before | rfl | before
  · exact (before.text utc utc').le
  · exact le_refl _
  · exact absurd (before.instant utc' utc) (not_lt.mpr le)

end Writing

section Spellings

/-- The text of an instant in UTC, with so many digits and one more. -/
def Canonical (n : ℕ) (t : ℚ) (text : String) : Prop :=
  ∃ s : Stamp, s.Utc n ∧ s.Current ∧ s.instant = t ∧ text = String.ofList s.utcText

theorem Canonical.instant {n : ℕ} {t : ℚ} {text : String} (canonical : Canonical n t text) :
    instant text = some t := by
  obtain ⟨s,utc,current,rfl,rfl⟩ := canonical
  rw [Timestamps.instant,String.toList_ofList,readStamp_utcText utc]
  exact if_pos ⟨utc.valid,current⟩

theorem Canonical.le {n : ℕ} {t t' : ℚ} {text text' : String} (first : Canonical n t text) (second : Canonical n t' text')
    (le : t ≤ t') : text ≤ text' := by
  obtain ⟨s,utc,_,rfl,rfl⟩ := first
  obtain ⟨s',utc',_,rfl,rfl⟩ := second
  rw [String.le_iff_toList_le,String.toList_ofList,String.toList_ofList]
  exact utc_le utc utc' le

end Spellings

end Orrery.Foundation.Timestamps
