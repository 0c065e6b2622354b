import Orrery.Foundation.HashTree

/-! What a root binds. A path that ends at the root of a tree descends that tree:
where no two of the inputs hashed on either side collide, it ends at a leaf and its
siblings are those of the tree. Which leaf it ends at follows from the turns alone,
because no leaf's turns are those of another with more right turns on top. -/
namespace Orrery.Foundation.HashTree

variable {α δ : Type}

inductive Input (α δ : Type)
  | empty
  | leaf (data : α)
  | node (left right : δ)

def Hashes.digest (h : Hashes α δ) : Input α δ → δ
  | .empty => h.empty
  | .leaf data => h.leaf data
  | .node left right => h.node left right

def inputs (h : Hashes α δ) (leaves : List α) : List (Input α δ) :=
  match leaves with
  | [] => [.empty]
  | [x] => [.leaf x]
  | x :: y :: rest =>
    let k := 2^splitExponent (x :: y :: rest).length
    .node (root h ((x :: y :: rest).take k)) (root h ((x :: y :: rest).drop k)) ::
      (inputs h ((x :: y :: rest).take k) ++ inputs h ((x :: y :: rest).drop k))
termination_by leaves.length
decreasing_by
  · have := split_lt (n := (x :: y :: rest).length) (by simp)
    simp only [List.length_take]
    omega
  · have := Nat.two_pow_pos (splitExponent (x :: y :: rest).length)
    simp only [List.length_drop,List.length_cons] at *
    omega

theorem inputs_split (h : Hashes α δ) (leaves : List α) (big : 2 ≤ leaves.length) :
    inputs h leaves = .node (root h (leaves.take (2^splitExponent leaves.length)))
      (root h (leaves.drop (2^splitExponent leaves.length))) ::
      (inputs h (leaves.take (2^splitExponent leaves.length)) ++
        inputs h (leaves.drop (2^splitExponent leaves.length))) := by
  match leaves, big with
  | x :: y :: rest, _ => rw [inputs]

def joined (step : Bool × δ) (value : δ) : Input α δ :=
  if step.1 then .node step.2 value else .node value step.2

def ascend (h : Hashes α δ) (value : δ) (steps : List (Bool × δ)) : δ :=
  steps.foldl (fun value step => h.digest (joined step value)) value

theorem ascend_append (h : Hashes α δ) (value : δ) (steps : List (Bool × δ)) (last : Bool × δ) :
    ascend h value (steps ++ [last]) = h.digest (joined last (ascend h value steps)) := by
  simp [ascend]

def ascentInputs (h : Hashes α δ) : δ → List (Bool × δ) → List (Input α δ)
  | _, [] => []
  | value, step :: rest => joined step value :: ascentInputs h (h.digest (joined step value)) rest

theorem ascentInputs_append (h : Hashes α δ) (steps : List (Bool × δ)) (last : Bool × δ) : ∀ value,
    ascentInputs h value (steps ++ [last]) = ascentInputs h value steps ++ [joined last (ascend h value steps)] := by
  induction steps with
  | nil => intro value; rfl
  | cons step rest ih =>
    intro value
    simp only [List.cons_append,ascentInputs,ih]
    rfl

def Apart (h : Hashes α δ) (first second : List (Input α δ)) : Prop :=
  ∀ x ∈ first, ∀ y ∈ second, h.digest x = h.digest y → x = y

theorem Apart.mono {h : Hashes α δ} {first second first' second' : List (Input α δ)} (apart : Apart h first second)
    (left : first' ⊆ first) (right : second' ⊆ second) : Apart h first' second' :=
  fun x inside y among => apart x (left inside) y (right among)

def route (h : Hashes α δ) (leaves : List α) (m : Nat) : List (Bool × δ) :=
  if _big : 2 ≤ leaves.length then
    let k := 2^splitExponent leaves.length
    if m < k then route h (leaves.take k) m ++ [(false,root h (leaves.drop k))]
    else route h (leaves.drop k) (m-k) ++ [(true,root h (leaves.take k))]
  else []
termination_by leaves.length
decreasing_by
  · have := split_lt _big
    simp only [List.length_take]
    omega
  · have := Nat.two_pow_pos (splitExponent leaves.length)
    simp only [List.length_drop]
    omega

theorem route_single (h : Hashes α δ) (leaves : List α) (m : Nat) (small : leaves.length ≤ 1) :
    route h leaves m = [] := by
  rw [route,dif_neg (by omega)]

theorem route_left (h : Hashes α δ) (leaves : List α) (m : Nat) (big : 2 ≤ leaves.length)
    (left : m < 2^splitExponent leaves.length) :
    route h leaves m = route h (leaves.take (2^splitExponent leaves.length)) m ++
      [(false,root h (leaves.drop (2^splitExponent leaves.length)))] := by
  rw [route,dif_pos big]
  exact if_pos left

theorem route_right (h : Hashes α δ) (leaves : List α) (m : Nat) (big : 2 ≤ leaves.length)
    (right : 2^splitExponent leaves.length ≤ m) :
    route h leaves m = route h (leaves.drop (2^splitExponent leaves.length)) (m-2^splitExponent leaves.length) ++
      [(true,root h (leaves.take (2^splitExponent leaves.length)))] := by
  rw [route,dif_pos big]
  exact if_neg (by omega)

def turns (n m : Nat) : List Bool :=
  if _big : 2 ≤ n then
    if m < 2^splitExponent n then turns (2^splitExponent n) m ++ [false]
    else turns (n-2^splitExponent n) (m-2^splitExponent n) ++ [true]
  else []
termination_by n
decreasing_by
  · exact split_lt _big
  · have := Nat.two_pow_pos (splitExponent n)
    omega

theorem turns_single (n m : Nat) (small : n ≤ 1) : turns n m = [] := by
  rw [turns,dif_neg (by omega)]

theorem turns_left (n m : Nat) (big : 2 ≤ n) (left : m < 2^splitExponent n) :
    turns n m = turns (2^splitExponent n) m ++ [false] := by
  rw [turns,dif_pos big,if_pos left]

theorem turns_right (n m : Nat) (big : 2 ≤ n) (right : 2^splitExponent n ≤ m) :
    turns n m = turns (n-2^splitExponent n) (m-2^splitExponent n) ++ [true] := by
  rw [turns,dif_pos big,if_neg (by omega)]

theorem route_parts (h : Hashes α δ) (size : Nat) : ∀ (leaves : List α) (m : Nat), leaves.length = size →
    (route h leaves m).map Prod.snd = path h leaves m ∧ (route h leaves m).map Prod.fst = turns leaves.length m := by
  induction size using Nat.strong_induction_on with
  | _ size ih =>
    intro leaves m length
    by_cases big : 2 ≤ leaves.length
    · have below := split_lt big
      have pos := Nat.two_pow_pos (splitExponent leaves.length)
      by_cases left : m < 2^splitExponent leaves.length
      · obtain ⟨path_eq,turns_eq⟩ := ih (leaves.take (2^splitExponent leaves.length)).length (by simp; omega) _ m rfl
        have short : (leaves.take (2^splitExponent leaves.length)).length = 2^splitExponent leaves.length := by
          simp
          omega
        rw [route_left h leaves m big left,path_left h leaves m big left,turns_left _ m big left]
        rw [short] at turns_eq
        simp [path_eq,turns_eq]
      · obtain ⟨path_eq,turns_eq⟩ := ih (leaves.drop (2^splitExponent leaves.length)).length (by simp; omega) _
          (m-2^splitExponent leaves.length) rfl
        rw [route_right h leaves m big (by omega),path_right h leaves m big (by omega),turns_right _ m big (by omega)]
        rw [List.length_drop] at turns_eq
        simp [path_eq,turns_eq]
    · rw [route_single h leaves m (by omega),path_single h leaves m (by omega),turns_single _ m (by omega)]
      exact ⟨rfl,rfl⟩

/-- A path from a leaf's hash to the root is the route of a leaf of the tree. -/
theorem ascend_root (h : Hashes α δ) (size : Nat) : ∀ (leaves : List α) (x : α) (steps : List (Bool × δ)),
    leaves.length = size → Apart h (inputs h leaves) (.leaf x :: ascentInputs h (h.leaf x) steps) →
    ascend h (h.leaf x) steps = root h leaves → ∃ j, leaves[j]? = some x ∧ steps = route h leaves j := by
  induction size using Nat.strong_induction_on with
  | _ size ih =>
    intro leaves x steps length apart reached
    rcases List.eq_nil_or_concat steps with rfl | ⟨front,last,rfl⟩
    · cases leaves with
      | nil =>
        rw [inputs] at apart
        have same := apart .empty (by simp) (.leaf x) (by simp)
          (by simpa [ascend,root,Hashes.digest] using reached.symm)
        cases same
      | cons y rest =>
        cases rest with
        | nil =>
          rw [inputs] at apart
          have same := apart (.leaf y) (by simp) (.leaf x) (by simp)
            (by simpa [ascend,root,Hashes.digest] using reached.symm)
          cases same
          exact ⟨0,rfl,(route_single h [x] 0 (by simp)).symm⟩
        | cons z rest =>
          rw [inputs] at apart
          rw [root] at reached
          have same := apart _ (List.mem_cons_self ..) (.leaf x) (by simp) reached.symm
          cases same
    · have top : joined last (ascend h (h.leaf x) front) ∈ .leaf x :: ascentInputs h (h.leaf x) (front ++ [last]) := by
        rw [ascentInputs_append]
        simp
      rw [List.concat_eq_append] at reached apart ⊢
      rw [ascend_append] at reached
      have lower : .leaf x :: ascentInputs h (h.leaf x) front ⊆ .leaf x :: ascentInputs h (h.leaf x)
          (front ++ [last]) := by
        rw [ascentInputs_append]
        exact List.cons_subset_cons _ (List.subset_append_left _ _)
      obtain ⟨side,p⟩ := last
      by_cases big : 2 ≤ leaves.length
      · have below := split_lt big
        have pos := Nat.two_pow_pos (splitExponent leaves.length)
        have parts := inputs_split h leaves big
        rw [root_split h leaves big] at reached
        have same := apart (.node (root h (leaves.take (2^splitExponent leaves.length)))
          (root h (leaves.drop (2^splitExponent leaves.length)))) (by simp [parts]) _ top reached.symm
        cases side with
        | false =>
          simp only [joined,Bool.false_eq_true,if_false,Input.node.injEq] at same
          obtain ⟨value,rfl⟩ := same
          obtain ⟨j,found,rfl⟩ := ih (leaves.take (2^splitExponent leaves.length)).length (by simp; omega) _ x front rfl
            (apart.mono (by rw [parts]; intro y among; simp [among]) lower) value.symm
          obtain ⟨left,found⟩ : j < 2^splitExponent leaves.length ∧ leaves[j]? = some x := by
            simpa [List.getElem?_take] using found
          exact ⟨j,found,(route_left h leaves j big left).symm⟩
        | true =>
          simp only [joined,if_true,Input.node.injEq] at same
          obtain ⟨rfl,value⟩ := same
          obtain ⟨j,found,rfl⟩ := ih (leaves.drop (2^splitExponent leaves.length)).length (by simp; omega) _ x front rfl
            (apart.mono (by rw [parts]; intro y among; simp [among]) lower) value.symm
          refine ⟨2^splitExponent leaves.length+j,by simpa using found,?_⟩
          rw [route_right h leaves _ big (by omega),Nat.add_sub_cancel_left]
      · -- a node is neither the hash of one leaf nor that of none
        have node : ∃ left right, joined (α := α) (side,p) (ascend h (h.leaf x) front) = .node left right := by
          cases side <;> exact ⟨_,_,rfl⟩
        obtain ⟨left,right,node⟩ := node
        rw [node] at top reached
        cases leaves with
        | nil =>
          rw [inputs] at apart
          rw [root] at reached
          have same := apart .empty (by simp) _ top reached.symm
          cases same
        | cons y rest =>
          cases rest with
          | nil =>
            rw [inputs] at apart
            rw [root] at reached
            have same := apart (.leaf y) (by simp) _ top reached.symm
            cases same
          | cons z more => simp at big

theorem turns_full (e : Nat) : ∀ m, (turns (2^e) m).length = e := by
  induction e with
  | zero =>
    intro m
    rw [turns_single _ m (by simp)]
    rfl
  | succ e ih =>
    intro m
    have pos := Nat.two_pow_pos e
    have double : 2^(e+1) = 2*2^e := by rw [Nat.pow_succ,Nat.mul_comm]
    have exponent : splitExponent (2^(e+1)) = e := split_unique (by omega) (by omega)
    by_cases left : m < 2^e
    · rw [turns_left _ m (by omega) (by rw [exponent]; exact left),exponent]
      simp [ih]
    · have half : 2^(e+1)-2^e = 2^e := by omega
      rw [turns_right _ m (by omega) (by rw [exponent]; omega),exponent,half]
      simp [ih]

theorem turns_inj (n : Nat) : ∀ i j, i < n → j < n → turns n i = turns n j → i = j := by
  induction n using Nat.strong_induction_on with
  | _ n ih =>
    intro i j first second same
    by_cases big : 2 ≤ n
    · have below := split_lt big
      have pos := Nat.two_pow_pos (splitExponent n)
      by_cases left : i < 2^splitExponent n <;> by_cases left' : j < 2^splitExponent n
      · rw [turns_left n i big left,turns_left n j big left'] at same
        exact ih _ below i j left left' (List.append_cancel_right same)
      · rw [turns_left n i big left,turns_right n j big (by omega)] at same
        simpa using (List.append_inj' same rfl).2
      · rw [turns_right n i big (by omega),turns_left n j big left'] at same
        simpa using (List.append_inj' same rfl).2
      · rw [turns_right n i big (by omega),turns_right n j big (by omega)] at same
        have equal := ih (n-2^splitExponent n) (by omega) _ _ (by omega) (by omega) (List.append_cancel_right same)
        omega
    · omega

def rest (n : Nat) : Nat := n-2^splitExponent n

theorem rest_le (n d : Nat) : rest^[d] n ≤ n := by
  induction d with
  | zero => exact Nat.le_refl n
  | succ d ih =>
    rw [Function.iterate_succ_apply']
    exact Nat.le_trans (Nat.sub_le _ _) ih

theorem turns_edge (size : Nat) : ∀ n d i j y, rest^[d+1] n = size → i < n → j < size →
    turns size j ≠ turns n i ++ List.replicate y true := by
  induction size using Nat.strong_induction_on with
  | _ size ih =>
    intro n d i j y tail first second same
    have within : size ≤ rest n := by
      rw [← tail,Function.iterate_succ_apply]
      exact rest_le _ d
    have half := le_double_split n
    have outer : 2 ≤ n := by
      unfold rest at within
      have pos := Nat.two_pow_pos (splitExponent n)
      omega
    have below := split_lt outer
    by_cases big : 2 ≤ size
    · have inner := split_lt big
      have pos := Nat.two_pow_pos (splitExponent size)
      have next : rest^[d+2] n = size-2^splitExponent size := by
        rw [Function.iterate_succ_apply',tail]
        rfl
      cases y with
      | succ y =>
        rw [List.replicate_succ',← List.append_assoc] at same
        by_cases left : j < 2^splitExponent size
        · rw [turns_left size j big left] at same
          simpa using (List.append_inj' same rfl).2
        · rw [turns_right size j big (by omega)] at same
          exact ih (size-2^splitExponent size) (by omega) n (d+1) i _ y next first (by omega)
            (List.append_cancel_right same)
      | zero =>
        rw [List.replicate_zero,List.append_nil] at same
        by_cases left : j < 2^splitExponent size <;> by_cases left' : i < 2^splitExponent n
        · rw [turns_left size j big left,turns_left n i outer left'] at same
          have height := congrArg List.length (List.append_cancel_right same)
          rw [turns_full,turns_full] at height
          unfold rest at within
          rw [height] at inner
          omega
        · rw [turns_left size j big left,turns_right n i outer (by omega)] at same
          simpa using (List.append_inj' same rfl).2
        · rw [turns_right size j big (by omega),turns_left n i outer left'] at same
          simpa using (List.append_inj' same rfl).2
        · rw [turns_right size j big (by omega),turns_right n i outer (by omega)] at same
          have shifted : rest^[d+1] (n-2^splitExponent n) = size-2^splitExponent size := by
            rw [← next,Function.iterate_succ_apply rest (d+1)]
            rfl
          refine ih (size-2^splitExponent size) (by omega) _ d (i-2^splitExponent n)
            (j-2^splitExponent size) 0 shifted (by omega) (by omega) ?_
          simpa using List.append_cancel_right same
    · rw [turns_single size j (by omega)] at same
      have nothing := (List.append_eq_nil_iff.mp same.symm).1
      by_cases left : i < 2^splitExponent n
      · rw [turns_left n i outer left] at nothing
        simp at nothing
      · rw [turns_right n i outer (by omega)] at nothing
        simp at nothing

theorem turns_unextended (n i j y : Nat) (first : i < n) (second : j < n)
    (same : turns n j = turns n i ++ List.replicate y true) : j = i := by
  cases y with
  | zero =>
    rw [List.replicate_zero,List.append_nil] at same
    exact turns_inj n j i second first same
  | succ y =>
    exfalso
    rw [List.replicate_succ',← List.append_assoc] at same
    by_cases big : 2 ≤ n
    · by_cases left : j < 2^splitExponent n
      · rw [turns_left n j big left] at same
        simpa using (List.append_inj' same rfl).2
      · rw [turns_right n j big (by omega)] at same
        exact turns_edge (n-2^splitExponent n) n 0 i _ y rfl first (by omega) (List.append_cancel_right same)
    · rw [turns_single n j (by omega)] at same
      simp at same

/-! The turns a cursor takes depend on its two numbers only. -/

def side (fn sn : Nat) : Bool := decide (fn = sn ∨ fn % 2 = 1)

def onward (fn sn : Nat) : Nat × Nat :=
  if fn = sn ∨ fn % 2 = 1 then ((strip fn fn sn).1/2,(strip fn fn sn).2/2) else (fn/2,sn/2)

def sides : Nat → Nat → Nat → List Bool
  | 0, _, _ => []
  | count+1, fn, sn => side fn sn :: sides count (onward fn sn).1 (onward fn sn).2

def onwards : Nat → Nat → Nat → Nat × Nat
  | 0, fn, sn => (fn,sn)
  | count+1, fn, sn => onwards count (onward fn sn).1 (onward fn sn).2

@[simp] theorem sides_length (count : Nat) : ∀ fn sn, (sides count fn sn).length = count := by
  induction count with
  | zero => intro fn sn; rfl
  | succ count ih => intro fn sn; simp [sides,ih]

theorem sides_add (a b : Nat) : ∀ fn sn,
    sides (a+b) fn sn = sides a fn sn ++ sides b (onwards a fn sn).1 (onwards a fn sn).2 := by
  induction a with
  | zero => intro fn sn; simp [sides,onwards]
  | succ a ih =>
    intro fn sn
    rw [Nat.succ_add]
    simp [sides,onwards,ih]

theorem sides_zero (count : Nat) : sides count 0 0 = List.replicate count true := by
  induction count with
  | zero => rfl
  | succ count ih =>
    rw [List.replicate_succ,← ih]
    rfl

theorem strip_le (fuel : Nat) : ∀ fn sn, fn ≤ sn → (strip fuel fn sn).1 ≤ (strip fuel fn sn).2 := by
  induction fuel with
  | zero => intro fn sn ordered; exact ordered
  | succ fuel ih =>
    intro fn sn ordered
    rw [strip]
    split
    next => exact ih _ _ (Nat.div_le_div_right ordered)
    next => exact ordered

theorem onwards_le (count : Nat) : ∀ fn sn, fn ≤ sn → (onwards count fn sn).1 ≤ (onwards count fn sn).2 := by
  induction count with
  | zero => intro fn sn ordered; exact ordered
  | succ count ih =>
    intro fn sn ordered
    refine ih _ _ ?_
    unfold onward
    split
    next => exact Nat.div_le_div_right (strip_le fn fn sn ordered)
    next => exact Nat.div_le_div_right ordered

theorem climbStep_onward (h : Hashes α δ) (fn sn : Nat) (value p : δ) : climbStep h ⟨fn,sn,value⟩ p =
    ⟨(onward fn sn).1,(onward fn sn).2,h.digest (joined (side fn sn,p) value)⟩ := by
  unfold climbStep onward joined side
  by_cases turn : fn = sn ∨ fn % 2 = 1
  · simp only [turn,if_true,decide_true]
    rfl
  · simp only [turn,if_false,decide_false,Bool.false_eq_true]
    rfl

theorem climb_ascend (h : Hashes α δ) (proof : List δ) : ∀ fn sn value,
    climb h ⟨fn,sn,value⟩ proof = ⟨(onwards proof.length fn sn).1,(onwards proof.length fn sn).2,
      ascend h value ((sides proof.length fn sn).zip proof)⟩ := by
  induction proof with
  | nil => intro fn sn value; rfl
  | cons p proof ih =>
    intro fn sn value
    have climbed := ih (onward fn sn).1 (onward fn sn).2 (h.digest (joined (side fn sn,p) value))
    rw [← climbStep_onward] at climbed
    exact climbed

inductive Term
  | empty
  | leaf (number : Nat)
  | node (left right : Term)

def free : Hashes Nat Term := ⟨.empty,.leaf,.node⟩

theorem free_apart (first second : List (Input Nat Term)) : Apart free first second := by
  intro x _ y _ same
  cases x <;> cases y <;> simp_all [Hashes.digest,free]

theorem sides_turns (n i : Nat) (index : i < n) :
    sides (turns n i).length i (n-1) = turns n i ∧ onwards (turns n i).length i (n-1) = (0,0) := by
  have inside : i < (List.range n).length := by simpa using index
  have climbed := climb_path free (List.range n) i inside
  obtain ⟨paths,sidesOf⟩ := route_parts free _ (List.range n) i rfl
  have steps : (path free (List.range n) i).length = (turns n i).length := by
    have fst := congrArg List.length sidesOf
    have snd := congrArg List.length paths
    simp only [List.length_map,List.length_range] at fst snd
    omega
  rw [climb_ascend,steps,Cursor.mk.injEq] at climbed
  simp only [List.length_range,List.get_eq_getElem,List.getElem_range] at climbed
  obtain ⟨left,right,reached⟩ := climbed
  refine ⟨?_,Prod.ext left right⟩
  obtain ⟨j,found,same⟩ := ascend_root free _ (List.range n) i _ rfl (free_apart _ _) reached
  obtain rfl : j = i := by
    obtain ⟨_,equal⟩ := List.getElem?_eq_some_iff.mp found
    simpa using equal
  have firsts := congrArg (List.map Prod.fst) same
  rwa [sidesOf,List.length_range,List.map_fst_zip (by simp [steps])] at firsts

theorem climb_sound (h : Hashes α δ) (leaves : List α) (x : α) (i : Nat) (proof : List δ) (index : i < leaves.length)
    (apart : Apart h (inputs h leaves) (.leaf x :: ascentInputs h (h.leaf x)
      ((sides proof.length i (leaves.length-1)).zip proof)))
    (last : (climb h ⟨i,leaves.length-1,h.leaf x⟩ proof).sn = 0)
    (reached : (climb h ⟨i,leaves.length-1,h.leaf x⟩ proof).value = root h leaves) :
    leaves[i]? = some x ∧ proof = path h leaves i := by
  rw [climb_ascend] at last reached
  obtain ⟨j,found,same⟩ := ascend_root h _ leaves x _ rfl apart reached
  obtain ⟨paths,taken⟩ := route_parts h _ leaves j rfl
  obtain ⟨within,_⟩ := List.getElem?_eq_some_iff.mp found
  have turned : sides proof.length i (leaves.length-1) = turns leaves.length j := by
    have firsts := congrArg (List.map Prod.fst) same
    rwa [taken,List.map_fst_zip (by simp)] at firsts
  have used : proof = path h leaves j := by
    have seconds := congrArg (List.map Prod.snd) same
    rwa [paths,List.map_snd_zip (by simp)] at seconds
  obtain ⟨own,ended⟩ := sides_turns leaves.length i index
  -- past the shorter of the two the numbers are zero, and the other only turns right
  have same : j = i := by
    rcases Nat.le_total (turns leaves.length i).length proof.length with longer | longer
    · obtain ⟨more,split⟩ := Nat.exists_eq_add_of_le longer
      rw [split,sides_add,own,ended,sides_zero] at turned
      exact turns_unextended _ i j more index within turned.symm
    · obtain ⟨more,split⟩ := Nat.exists_eq_add_of_le longer
      have zero : onwards proof.length i (leaves.length-1) = (0,0) := by
        have ordered := onwards_le proof.length i (leaves.length-1) (by omega)
        have last : (onwards proof.length i (leaves.length-1)).2 = 0 := last
        exact Prod.ext (by simp only; omega) last
      rw [split,sides_add,turned,zero,sides_zero] at own
      exact (turns_unextended _ j i more within index own.symm).symm
  subst same
  exact ⟨found,used⟩

end Orrery.Foundation.HashTree
