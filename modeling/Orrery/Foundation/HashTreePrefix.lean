import Mathlib.Data.List.Induction
import Orrery.Foundation.HashTreeBinding

/-! A tree and the tree over its first leaves. A prefix proof descends to a subtree
that ends where the prefix ends; climbing back, the siblings on the left belong to
both trees, those on the right to the larger one only. -/
namespace Orrery.Foundation.HashTree

variable {α δ : Type}

def prefixRoute (h : Hashes α δ) (leaves : List α) (m : Nat) : δ × List (Bool × δ) :=
  if _whole : leaves.length ≤ m ∨ leaves.length ≤ 1 then (root h leaves,[])
  else
    let k := 2^splitExponent leaves.length
    if m ≤ k then
      ((prefixRoute h (leaves.take k) m).1,
        (prefixRoute h (leaves.take k) m).2 ++ [(false,root h (leaves.drop k))])
    else
      ((prefixRoute h (leaves.drop k) (m-k)).1,
        (prefixRoute h (leaves.drop k) (m-k)).2 ++ [(true,root h (leaves.take k))])
termination_by leaves.length
decreasing_by
  all_goals
    have := split_lt (n := leaves.length) (by omega)
    have := Nat.two_pow_pos (splitExponent leaves.length)
    simp only [List.length_take,List.length_drop]
    omega

theorem prefixRoute_whole (h : Hashes α δ) (leaves : List α) (m : Nat) (whole : leaves.length ≤ m) :
    prefixRoute h leaves m = (root h leaves,[]) := by
  rw [prefixRoute,dif_pos (Or.inl whole)]

section Split
variable (h : Hashes α δ) (leaves : List α) (m : Nat)

theorem prefixRoute_left (inside : m < leaves.length) (positive : 0 < m) (left : m ≤ 2^splitExponent leaves.length) :
    prefixRoute h leaves m = ((prefixRoute h (leaves.take (2^splitExponent leaves.length)) m).1,
      (prefixRoute h (leaves.take (2^splitExponent leaves.length)) m).2 ++
        [(false,root h (leaves.drop (2^splitExponent leaves.length)))]) := by
  rw [prefixRoute,dif_neg (by omega)]
  exact if_pos left

theorem prefixRoute_right (inside : m < leaves.length) (right : 2^splitExponent leaves.length < m) :
    prefixRoute h leaves m =
      ((prefixRoute h (leaves.drop (2^splitExponent leaves.length)) (m-2^splitExponent leaves.length)).1,
        (prefixRoute h (leaves.drop (2^splitExponent leaves.length)) (m-2^splitExponent leaves.length)).2 ++
          [(true,root h (leaves.take (2^splitExponent leaves.length)))]) := by
  have pos := Nat.two_pow_pos (splitExponent leaves.length)
  rw [prefixRoute,dif_neg (by omega)]
  exact if_neg (by omega)

end Split

def prefixTurns (n m : Nat) : List Bool :=
  if _whole : n ≤ m ∨ n ≤ 1 then []
  else if m ≤ 2^splitExponent n then prefixTurns (2^splitExponent n) m ++ [false]
  else prefixTurns (n-2^splitExponent n) (m-2^splitExponent n) ++ [true]
termination_by n
decreasing_by
  all_goals
    have := split_lt (n := n) (by omega)
    have := Nat.two_pow_pos (splitExponent n)
    omega

theorem prefixTurns_whole (n m : Nat) (whole : n ≤ m) : prefixTurns n m = [] := by
  rw [prefixTurns,dif_pos (Or.inl whole)]

theorem prefixTurns_left (n m : Nat) (inside : m < n) (positive : 0 < m) (left : m ≤ 2^splitExponent n) :
    prefixTurns n m = prefixTurns (2^splitExponent n) m ++ [false] := by
  rw [prefixTurns,dif_neg (by omega),if_pos left]

theorem prefixTurns_right (n m : Nat) (inside : m < n) (right : 2^splitExponent n < m) :
    prefixTurns n m = prefixTurns (n-2^splitExponent n) (m-2^splitExponent n) ++ [true] := by
  have pos := Nat.two_pow_pos (splitExponent n)
  rw [prefixTurns,dif_neg (by omega),if_neg (by omega)]

def ascendRight (h : Hashes α δ) (value : δ) (steps : List (Bool × δ)) : δ :=
  steps.foldl (fun value step => if step.1 then h.node step.2 value else value) value

theorem ascendRight_append (h : Hashes α δ) (value : δ) (steps : List (Bool × δ)) (last : Bool × δ) :
    ascendRight h value (steps ++ [last]) =
      if last.1 then h.node last.2 (ascendRight h value steps) else ascendRight h value steps := by
  simp [ascendRight]

structure Leads (h : Hashes α δ) (leaves : List α) (m : Nat) (start : δ) (steps : List (Bool × δ)) : Prop where
  larger : ascend h start steps = root h leaves
  smaller : ascendRight h start steps = root h (leaves.take m)
  inside : ascentInputs h start steps ⊆ inputs h leaves
  turns : steps.map Prod.fst = prefixTurns leaves.length m

theorem prefixRoute_leads (h : Hashes α δ) (size : Nat) : ∀ (leaves : List α) (m : Nat), leaves.length = size →
    0 < m → m ≤ leaves.length → Leads h leaves m (prefixRoute h leaves m).1 (prefixRoute h leaves m).2 := by
  induction size using Nat.strong_induction_on with
  | _ size ih =>
    intro leaves m length positive bound
    by_cases whole : leaves.length ≤ m
    · rw [prefixRoute_whole h leaves m whole]
      refine ⟨rfl,?_,by simp [ascentInputs],by rw [prefixTurns_whole _ m whole]; rfl⟩
      rw [List.take_of_length_le whole]
      rfl
    · have big : 2 ≤ leaves.length := by omega
      have below := split_lt big
      have half := le_double_split leaves.length
      have pos := Nat.two_pow_pos (splitExponent leaves.length)
      have parts := inputs_split h leaves big
      by_cases left : m ≤ 2^splitExponent leaves.length
      · have short : (leaves.take (2^splitExponent leaves.length)).length = 2^splitExponent leaves.length := by
          simp
          omega
        obtain ⟨larger,smaller,inside,taken⟩ := ih (leaves.take (2^splitExponent leaves.length)).length
          (by omega) _ m rfl positive (by omega)
        rw [prefixRoute_left h leaves m (by omega) positive left]
        refine ⟨?_,?_,?_,?_⟩
        · rw [ascend_append,larger,root_split h leaves big]
          rfl
        · rw [ascendRight_append,smaller,List.take_take,Nat.min_eq_left left]
          rfl
        · rw [ascentInputs_append,larger,parts]
          intro x member
          rcases List.mem_append.mp member with member | single
          · exact List.mem_cons_of_mem _ (List.mem_append_left _ (inside member))
          · rw [List.mem_singleton.mp single]
            exact List.mem_cons_self ..
        · rw [prefixTurns_left _ m (by omega) positive left]
          rw [short] at taken
          simp [taken]
      · obtain ⟨larger,smaller,inside,taken⟩ := ih (leaves.drop (2^splitExponent leaves.length)).length
          (by simp; omega) _ (m-2^splitExponent leaves.length) rfl (by omega) (by simp; omega)
        rw [prefixRoute_right h leaves m (by omega) (by omega)]
        refine ⟨?_,?_,?_,?_⟩
        · rw [ascend_append,larger,root_split h leaves big]
          rfl
        · have size : (leaves.take m).length = m := by simp; omega
          have exponent : splitExponent m = splitExponent leaves.length := split_unique (by omega) (by omega)
          rw [ascendRight_append,smaller,root_split h (leaves.take m) (by omega),size,exponent,List.take_take,
            Nat.min_eq_left (by omega),List.drop_take]
          rfl
        · rw [ascentInputs_append,larger,parts]
          intro x member
          rcases List.mem_append.mp member with member | single
          · exact List.mem_cons_of_mem _ (List.mem_append_right _ (inside member))
          · rw [List.mem_singleton.mp single]
            exact List.mem_cons_self ..
        · rw [prefixTurns_right _ m (by omega) (by omega)]
          rw [List.length_drop] at taken
          simp [taken]

theorem ascend_unique (h : Hashes α δ) (steps : List (Bool × δ)) : ∀ (steps' : List (Bool × δ)) (value value' : δ),
    steps.map Prod.fst = steps'.map Prod.fst →
    Apart h (ascentInputs h value steps) (ascentInputs h value' steps') →
    ascend h value steps = ascend h value' steps' → value = value' ∧ steps = steps' := by
  induction steps using List.reverseRecOn with
  | nil =>
    intro steps' value value' same _ equal
    obtain rfl : steps' = [] := by simpa using same.symm
    exact ⟨equal,rfl⟩
  | append_singleton front last ih =>
    intro steps' value value' same apart equal
    rcases List.eq_nil_or_concat steps' with rfl | ⟨front',last',rfl⟩
    · simp at same
    · rw [List.concat_eq_append] at same apart equal ⊢
      rw [List.map_append,List.map_append] at same
      obtain ⟨fronts,lasts⟩ := List.append_inj' same rfl
      rw [ascentInputs_append,ascentInputs_append] at apart
      rw [ascend_append,ascend_append] at equal
      have joint := apart _ (List.mem_append_right _ (List.mem_singleton_self _)) _
        (List.mem_append_right _ (List.mem_singleton_self _)) equal
      obtain ⟨turn,p⟩ := last
      obtain ⟨turn',p'⟩ := last'
      obtain rfl : turn = turn' := by simpa using lasts
      have both : p = p' ∧ ascend h value front = ascend h value' front' := by
        cases turn with
        | false =>
          simp only [joined,Bool.false_eq_true,if_false,Input.node.injEq] at joint
          exact ⟨joint.2,joint.1⟩
        | true =>
          simp only [joined,if_true,Input.node.injEq] at joint
          exact joint
      obtain ⟨rfl,below⟩ := both
      obtain ⟨rfl,rfl⟩ := ih front' value value' fronts
        (apart.mono (List.subset_append_left _ _) (List.subset_append_left _ _)) below
      exact ⟨rfl,rfl⟩

/-! The cursor of a prefix proof starts at the last leaf of the prefix and first
leaves the full subtree that ends there. -/

def shed : Nat → Nat → Nat → Nat × Nat
  | 0, fn, sn => (fn,sn)
  | fuel+1, fn, sn => if fn % 2 = 1 then shed fuel (fn/2) (sn/2) else (fn,sn)

theorem shed_ones (e : Nat) : ∀ fuel a sn, a % 2 = 0 → e ≤ fuel → shed fuel (2^e*a+2^e-1) sn = (a,sn/2^e) := by
  induction e with
  | zero =>
    intro fuel a sn even _
    cases fuel with
    | zero => simp [shed]
    | succ fuel => simp [shed,even]
  | succ e ih =>
    intro fuel a sn even enough
    obtain ⟨fuel,rfl⟩ : ∃ f, fuel = f+1 := ⟨fuel-1,by omega⟩
    have pos := Nat.two_pow_pos e
    have double : 2^(e+1)*a+2^(e+1)-1 = 2*(2^e*a+2^e-1)+1 := by
      have outer : 2^(e+1)*a = 2*(2^e*a) := by rw [Nat.pow_succ]; ring
      have inner : 2^(e+1) = 2*2^e := by rw [Nat.pow_succ,Nat.mul_comm]
      omega
    have half : (2*(2^e*a+2^e-1)+1)/2 = 2^e*a+2^e-1 := by omega
    rw [double,shed,if_pos (by omega),half,ih fuel a (sn/2) even (by omega),Nat.div_div_eq_div_mul,Nat.pow_succ,
      Nat.mul_comm 2]

theorem onward_even (fn sn : Nat) (strict : fn < sn) (even : fn % 2 = 0) :
    side fn sn = false ∧ onward fn sn = (fn/2,sn/2) := by
  have turn : ¬ (fn = sn ∨ fn % 2 = 1) := by omega
  exact ⟨by simp [side,turn],by rw [onward,if_neg turn]⟩

theorem onward_odd (fn sn : Nat) (odd : fn % 2 = 1) : side fn sn = true ∧ onward fn sn = (fn/2,sn/2) := by
  refine ⟨by simp [side,odd],?_⟩
  rw [onward,if_pos (Or.inr odd),strip_odd fn fn sn odd]

theorem onward_edge (i q : Nat) (odd : q % 2 = 1) :
    side (2^i*q) (2^i*q) = true ∧ onward (2^i*q) (2^i*q) = (q/2,q/2) := by
  have enough : i ≤ 2^i*q :=
    calc i ≤ 2^i := Nat.lt_two_pow_self.le
      _ ≤ 2^i*q := Nat.le_mul_of_pos_right _ (by omega)
  refine ⟨by simp [side],?_⟩
  rw [onward,if_pos (Or.inl rfl),strip_pow i _ q _ odd enough,Nat.mul_div_cancel_left _ (Nat.two_pow_pos i)]

theorem onwards_add (a b : Nat) : ∀ fn sn,
    onwards (a+b) fn sn = onwards b (onwards a fn sn).1 (onwards a fn sn).2 := by
  induction a with
  | zero => intro fn sn; simp [onwards]
  | succ a ih =>
    intro fn sn
    rw [Nat.succ_add]
    simp [onwards,ih]

/-- From the pair `start` the cursor takes these turns to the pair `finish`, and its
second number was not zero before any of them. -/
structure Walked (start : Nat × Nat) (turns : List Bool) (finish : Nat × Nat) : Prop where
  taken : sides turns.length start.1 start.2 = turns
  arrived : onwards turns.length start.1 start.2 = finish
  nonzero : ∀ k < turns.length, (onwards k start.1 start.2).2 ≠ 0

theorem Walked.stay (start : Nat × Nat) : Walked start [] start := ⟨rfl,rfl,by simp⟩

theorem Walked.snoc {start finish next : Nat × Nat} {turns : List Bool} {turn : Bool}
    (walked : Walked start turns finish) (nonzero : finish.2 ≠ 0) (step : side finish.1 finish.2 = turn ∧
      onward finish.1 finish.2 = next) : Walked start (turns ++ [turn]) next := by
  obtain ⟨taken,arrived,before⟩ := walked
  refine ⟨?_,?_,?_⟩
  · rw [List.length_append,List.length_singleton,sides_add,taken,arrived]
    simp [sides,step.1]
  · rw [List.length_append,List.length_singleton,onwards_add,arrived]
    simp [onwards,step.2]
  · intro k bound
    rw [List.length_append,List.length_singleton] at bound
    by_cases last : k = turns.length
    · rw [last,arrived]
      exact nonzero
    · exact before k (by omega)

theorem walked_inside (e : Nat) : ∀ a m fn sn, 0 < m → m ≤ 2^e → (m < 2^e ∨ a % 2 = 0) → fn = 2^e*a+m-1 →
    a < sn/2^e → Walked (shed fn fn sn) (prefixTurns (2^e) m) (a,sn/2^e) := by
  induction e with
  | zero =>
    intro a m fn sn positive bound kind number strict
    obtain rfl : m = 1 := by omega
    have even : a % 2 = 0 := by omega
    rw [prefixTurns_whole _ 1 (by simp)]
    have start := shed_ones 0 fn a sn even (Nat.zero_le _)
    have same : 2^0*a+2^0-1 = fn := by omega
    rw [same] at start
    rw [start]
    exact .stay _
  | succ e ih =>
    intro a m fn sn positive bound kind number strict
    have pos := Nat.two_pow_pos e
    have double : 2^(e+1) = 2*2^e := by rw [Nat.pow_succ,Nat.mul_comm]
    have offset : 2^(e+1)*a = 2^e*(2*a) := by rw [Nat.pow_succ]; ring
    have halved : sn/2^(e+1) = sn/2^e/2 := by rw [Nat.div_div_eq_div_mul,Nat.pow_succ]
    by_cases whole : m = 2^(e+1)
    · have even : a % 2 = 0 := by omega
      have enough : e+1 ≤ fn := by
        have := Nat.lt_two_pow_self (n := e+1)
        omega
      have start := shed_ones (e+1) fn a sn even enough
      have same : 2^(e+1)*a+2^(e+1)-1 = fn := by omega
      rw [same] at start
      rw [prefixTurns_whole _ m (by omega),start]
      exact .stay _
    · have exponent : splitExponent (2^(e+1)) = e := split_unique (by omega) (by omega)
      by_cases left : m ≤ 2^e
      · have walked := ih (2*a) m fn sn positive left (Or.inr (by omega)) (by omega) (by omega)
        rw [prefixTurns_left _ m (by omega) positive (by rw [exponent]; exact left),exponent]
        refine walked.snoc (by simp only; omega) ?_
        have step := onward_even (2*a) (sn/2^e) (by omega) (by omega)
        rw [halved]
        simpa using step
      · have number : fn = 2^e*(2*a+1)+(m-2^e)-1 := by
          rw [Nat.mul_add]
          omega
        have walked := ih (2*a+1) (m-2^e) fn sn (by omega) (by omega) (Or.inl (by omega)) number (by omega)
        have half : 2^(e+1)-2^e = 2^e := by omega
        rw [prefixTurns_right _ m (by omega) (by rw [exponent]; omega),exponent,half]
        refine walked.snoc (by simp only; omega) ?_
        have step := onward_odd (2*a+1) (sn/2^e) (by omega)
        have down : (2*a+1)/2 = a := by omega
        rw [halved]
        rwa [down] at step

theorem walked_edge (size : Nat) : ∀ e a m fn sn, size ≤ 2^e → 0 < m → m < size → fn = 2^e*a+m-1 →
    sn = 2^e*a+size-1 → ∃ j ≤ e, Walked (shed fn fn sn) (prefixTurns size m) (2^(e-j)*a,2^(e-j)*a) := by
  induction size using Nat.strong_induction_on with
  | _ size ih =>
    intro e a m fn sn fits positive bound number last
    have big : 2 ≤ size := by omega
    set s := splitExponent size with hs
    have below : 2^s < size := split_lt big
    have above : size ≤ 2*2^s := le_double_split size
    have lower : s < e := (Nat.pow_lt_pow_iff_right (by omega : 1 < 2)).mp (by omega)
    obtain ⟨d,rfl⟩ : ∃ d, e = s+1+d := ⟨e-s-1,by omega⟩
    have offset : 2^(s+1+d)*a = 2^s*(2*(2^d*a)) := by rw [Nat.pow_add,Nat.pow_succ]; ring
    have level : s+1+d-(s+1) = d := by omega
    have pos := Nat.two_pow_pos s
    refine ⟨s+1,by omega,?_⟩
    rw [level]
    by_cases left : m ≤ 2^s
    · have top : sn/2^s = 2*(2^d*a)+1 := by
        rw [last,offset,show 2^s*(2*(2^d*a))+size-1 = 2^s*(2*(2^d*a)+1)+(size-1-2^s) by
          rw [Nat.mul_add]; omega,Nat.mul_add_div pos,Nat.div_eq_of_lt (by omega)]
      have walked := walked_inside s (2*(2^d*a)) m fn sn positive left (Or.inr (by omega)) (by omega) (by omega)
      rw [prefixTurns_left _ m bound positive left,← hs]
      refine walked.snoc (by simp only; omega) ?_
      have step := onward_even (2*(2^d*a)) (sn/2^s) (by omega) (by omega)
      have down : 2*(2^d*a)/2 = 2^d*a := by omega
      have across : sn/2^s/2 = 2^d*a := by omega
      rwa [down,across] at step
    · have number : fn = 2^s*(2*(2^d*a)+1)+(m-2^s)-1 := by
        rw [Nat.mul_add]
        omega
      have last : sn = 2^s*(2*(2^d*a)+1)+(size-2^s)-1 := by
        rw [Nat.mul_add]
        omega
      obtain ⟨j,lowered,walked⟩ := ih (size-2^s) (by omega) s (2*(2^d*a)+1) (m-2^s) fn sn (by omega) (by omega)
        (by omega) number last
      rw [prefixTurns_right _ m bound (by rw [← hs]; omega),← hs]
      refine walked.snoc ?_ ?_
      · exact Nat.mul_ne_zero (Nat.two_pow_pos _).ne' (by omega)
      · have step := onward_edge (s-j) (2*(2^d*a)+1) (by omega)
        have down : (2*(2^d*a)+1)/2 = 2^d*a := by omega
        rwa [down] at step

theorem walked_to_top (n m : Nat) (positive : 0 < m) (bound : m < n) :
    Walked (shed (m-1) (m-1) (n-1)) (prefixTurns n m) (0,0) := by
  obtain ⟨j,_,walked⟩ := walked_edge n n 0 m (m-1) (n-1) Nat.lt_two_pow_self.le positive bound (by omega) (by omega)
  simpa using walked

end Orrery.Foundation.HashTree
