import Mathlib.Data.Nat.Log
import Mathlib.Tactic.Ring

/-! Left-balanced hash trees over arbitrary leaf and node functions. A list is
split at the largest power of two below its length; an audit path is replayed
from the leaf upward by a cursor holding the leaf number and the last leaf
number of the tree, both halved at every level. -/
namespace Orrery.Foundation.HashTree

variable {α δ : Type}

structure Hashes (α δ : Type) where
  empty : δ
  leaf : α → δ
  node : δ → δ → δ

def splitExponent (n : Nat) : Nat := Nat.log 2 (n-1)

theorem split_lt {n : Nat} (big : 2 ≤ n) : 2^splitExponent n < n := by
  have below := Nat.pow_log_le_self 2 (x := n-1) (by omega)
  unfold splitExponent
  omega

theorem le_double_split (n : Nat) : n ≤ 2 * 2^splitExponent n := by
  have above := Nat.lt_pow_succ_log_self (b := 2) (by omega) (n-1)
  rw [Nat.pow_succ] at above
  unfold splitExponent
  omega

theorem split_unique {n e : Nat} (below : 2^e < n) (above : n ≤ 2 * 2^e) : splitExponent n = e := by
  unfold splitExponent
  rw [Nat.log_eq_iff (Or.inr ⟨by omega,by have := Nat.two_pow_pos e; omega⟩)]
  exact ⟨by omega,by rw [Nat.pow_succ]; have := Nat.two_pow_pos e; omega⟩

def root (h : Hashes α δ) (leaves : List α) : δ :=
  match leaves with
  | [] => h.empty
  | [x] => h.leaf x
  | x :: y :: rest =>
    let k := 2^splitExponent (x :: y :: rest).length
    h.node (root h ((x :: y :: rest).take k)) (root h ((x :: y :: rest).drop k))
termination_by leaves.length
decreasing_by
  · have := split_lt (n := (x :: y :: rest).length) (by simp)
    simp only [List.length_take]
    omega
  · have := Nat.two_pow_pos (splitExponent (x :: y :: rest).length)
    simp only [List.length_drop,List.length_cons] at *
    omega

theorem root_split (h : Hashes α δ) (leaves : List α) (big : 2 ≤ leaves.length) :
    root h leaves = h.node (root h (leaves.take (2^splitExponent leaves.length)))
      (root h (leaves.drop (2^splitExponent leaves.length))) := by
  match leaves, big with
  | x :: y :: rest, _ => rw [root]

def path (h : Hashes α δ) (leaves : List α) (m : Nat) : List δ :=
  if _big : 2 ≤ leaves.length then
    let k := 2^splitExponent leaves.length
    if m < k then path h (leaves.take k) m ++ [root h (leaves.drop k)]
    else path h (leaves.drop k) (m-k) ++ [root h (leaves.take k)]
  else []
termination_by leaves.length
decreasing_by
  · have := split_lt _big
    simp only [List.length_take]
    omega
  · have := Nat.two_pow_pos (splitExponent leaves.length)
    simp only [List.length_drop]
    omega

theorem path_single (h : Hashes α δ) (leaves : List α) (m : Nat) (small : leaves.length ≤ 1) :
    path h leaves m = [] := by
  rw [path,dif_neg (by omega)]

theorem path_left (h : Hashes α δ) (leaves : List α) (m : Nat) (big : 2 ≤ leaves.length)
    (left : m < 2^splitExponent leaves.length) :
    path h leaves m = path h (leaves.take (2^splitExponent leaves.length)) m ++
      [root h (leaves.drop (2^splitExponent leaves.length))] := by
  rw [path,dif_pos big]
  exact if_pos left

theorem path_right (h : Hashes α δ) (leaves : List α) (m : Nat) (big : 2 ≤ leaves.length)
    (right : 2^splitExponent leaves.length ≤ m) :
    path h leaves m = path h (leaves.drop (2^splitExponent leaves.length)) (m-2^splitExponent leaves.length) ++
      [root h (leaves.take (2^splitExponent leaves.length))] := by
  rw [path,dif_pos big]
  exact if_neg (by omega)

def strip : Nat → Nat → Nat → Nat × Nat
  | 0, fn, sn => (fn,sn)
  | fuel+1, fn, sn => if fn ≠ 0 ∧ fn % 2 = 0 then strip fuel (fn/2) (sn/2) else (fn,sn)

theorem strip_odd (fuel fn sn : Nat) (odd : fn % 2 = 1) : strip fuel fn sn = (fn,sn) := by
  cases fuel with
  | zero => rfl
  | succ fuel => rw [strip,if_neg (by omega)]

theorem strip_pow (i : Nat) : ∀ fuel q sn, q % 2 = 1 → i ≤ fuel →
    strip fuel (2^i*q) sn = (q,sn/2^i) := by
  induction i with
  | zero =>
    intro fuel q sn odd _
    simpa using strip_odd fuel q sn odd
  | succ i ih =>
    intro fuel q sn odd enough
    obtain ⟨fuel,rfl⟩ : ∃ f, fuel = f+1 := ⟨fuel-1,by omega⟩
    have even : 2^(i+1)*q = 2*(2^i*q) := by rw [Nat.pow_succ]; ring
    have positive : 0 < 2^i*q := Nat.mul_pos (Nat.two_pow_pos i) (by omega)
    rw [strip,if_pos (by omega),even,Nat.mul_div_cancel_left _ (by omega : 0 < 2),
      ih fuel q (sn/2) odd (by omega),Nat.div_div_eq_div_mul,Nat.pow_succ,Nat.mul_comm 2]

structure Cursor (δ : Type) where
  fn : Nat
  sn : Nat
  value : δ

def climbStep (h : Hashes α δ) (c : Cursor δ) (p : δ) : Cursor δ :=
  if c.fn = c.sn ∨ c.fn % 2 = 1 then
    ⟨(strip c.fn c.fn c.sn).1/2,(strip c.fn c.fn c.sn).2/2,h.node p c.value⟩
  else ⟨c.fn/2,c.sn/2,h.node c.value p⟩

def climb (h : Hashes α δ) (c : Cursor δ) (proof : List δ) : Cursor δ :=
  proof.foldl (climbStep h) c

theorem climb_append (h : Hashes α δ) (c : Cursor δ) (first : List δ) (last : δ) :
    climb h c (first ++ [last]) = climbStep h (climb h c first) last := by
  simp [climb]

theorem climbStep_even (h : Hashes α δ) (fn sn : Nat) (value p : δ)
    (strict : fn < sn) (even : fn % 2 = 0) :
    climbStep h ⟨fn,sn,value⟩ p = ⟨fn/2,sn/2,h.node value p⟩ := by
  rw [climbStep,if_neg (by simp only; omega)]

theorem climbStep_odd (h : Hashes α δ) (fn sn : Nat) (value p : δ) (odd : fn % 2 = 1) :
    climbStep h ⟨fn,sn,value⟩ p = ⟨fn/2,sn/2,h.node p value⟩ := by
  rw [climbStep,if_pos (Or.inr odd)]
  simp only [strip_odd fn fn sn odd]

theorem climbStep_edge (h : Hashes α δ) (i q : Nat) (value p : δ) (odd : q % 2 = 1) :
    climbStep h ⟨2^i*q,2^i*q,value⟩ p = ⟨q/2,q/2,h.node p value⟩ := by
  have enough : i ≤ 2^i*q :=
    calc i ≤ 2^i := Nat.lt_two_pow_self.le
      _ ≤ 2^i*q := Nat.le_mul_of_pos_right _ (by omega)
  rw [climbStep,if_pos (Or.inl rfl)]
  simp only [strip_pow i _ q _ odd enough,Nat.mul_div_cancel_left _ (Nat.two_pow_pos i)]

private theorem halve_pow (n e : Nat) : n/2^e/2 = n/2^(e+1) := by
  rw [Nat.div_div_eq_div_mul,Nat.pow_succ]

theorem climb_inside (h : Hashes α δ) (e : Nat) : ∀ (leaves : List α) (fn sn : Nat),
    leaves.length = 2^e → ∀ index : fn % 2^e < leaves.length, fn/2^e < sn/2^e →
    climb h ⟨fn,sn,h.leaf (leaves.get ⟨fn % 2^e,index⟩)⟩ (path h leaves (fn % 2^e)) =
      ⟨fn/2^e,sn/2^e,root h leaves⟩ := by
  induction e with
  | zero =>
    intro leaves fn sn size index strict
    obtain ⟨x,rfl⟩ := List.length_eq_one_iff.mp (by simpa using size)
    rw [path_single h [x] _ (by simp)]
    simp [climb,root,Nat.mod_one]
  | succ e ih =>
    intro leaves fn sn size index strict
    have pos := Nat.two_pow_pos e
    have double : 2^(e+1) = 2*2^e := by rw [Nat.pow_succ,Nat.mul_comm]
    have exponent : splitExponent leaves.length = e := split_unique (by omega) (by omega)
    have big : 2 ≤ leaves.length := by omega
    have inner : fn/2^e < sn/2^e := by
      rw [← halve_pow fn e,← halve_pow sn e] at strict
      omega
    have digit : fn % 2^(e+1) = fn % 2^e + 2^e*(fn/2^e % 2) := by
      rw [Nat.pow_succ,Nat.mod_mul]
    rw [root_split h leaves big]
    by_cases left : fn/2^e % 2 = 0
    · have same : fn % 2^(e+1) = fn % 2^e := by rw [digit,left]; simp
      have bound : fn % 2^e < 2^e := Nat.mod_lt _ pos
      have first := ih (leaves.take (2^e)) fn sn (by simp; omega) (by simp; omega) inner
      simp only [same] at index ⊢
      rw [path_left h leaves _ big (by rw [exponent]; exact bound),exponent,climb_append]
      have item : leaves.get ⟨fn % 2^e,index⟩ = (leaves.take (2^e)).get ⟨fn % 2^e,by simp; omega⟩ := by simp
      rw [item,first,climbStep_even h _ _ _ _ inner left,halve_pow,halve_pow]
    · have one : fn/2^e % 2 = 1 := by omega
      have shifted : fn % 2^(e+1) = fn % 2^e + 2^e := by rw [digit,one,Nat.mul_one]
      have bound : fn % 2^e < 2^e := Nat.mod_lt _ pos
      have second := ih (leaves.drop (2^e)) fn sn (by simp; omega) (by simp; omega) inner
      simp only [shifted] at index ⊢
      rw [path_right h leaves _ big (by rw [exponent]; omega),exponent,climb_append,Nat.add_sub_cancel]
      have item : leaves.get ⟨fn % 2^e+2^e,index⟩ = (leaves.drop (2^e)).get ⟨fn % 2^e,by simp; omega⟩ := by
        simp [Nat.add_comm]
      rw [item,second,climbStep_odd h _ _ _ _ one,halve_pow,halve_pow]

theorem climb_edge (h : Hashes α δ) (size : Nat) : ∀ (leaves : List α) (m e a : Nat),
    leaves.length = size → ∀ index : m < leaves.length, leaves.length ≤ 2^e →
    ∃ j ≤ e, climb h ⟨2^e*a+m,2^e*a+leaves.length-1,h.leaf (leaves.get ⟨m,index⟩)⟩ (path h leaves m) =
      ⟨2^(e-j)*a,2^(e-j)*a,root h leaves⟩ := by
  induction size using Nat.strong_induction_on with
  | _ size ih =>
    intro leaves m e a length index fits
    by_cases small : leaves.length ≤ 1
    · obtain ⟨x,rfl⟩ := List.length_eq_one_iff.mp (by omega : leaves.length = 1)
      obtain rfl : m = 0 := by simpa using index
      refine ⟨0,by omega,?_⟩
      rw [path_single h [x] 0 (by simp)]
      simp [climb,root]
    · have big : 2 ≤ leaves.length := by omega
      set s := splitExponent leaves.length with hs
      have below : 2^s < leaves.length := split_lt big
      have above : leaves.length ≤ 2*2^s := le_double_split leaves.length
      have lower : s < e := (Nat.pow_lt_pow_iff_right (by omega : 1 < 2)).mp (by omega)
      obtain ⟨d,rfl⟩ : ∃ d, e = s+1+d := ⟨e-s-1,by omega⟩
      have offset : 2^(s+1+d)*a = 2^s*(2*(2^d*a)) := by rw [Nat.pow_add,Nat.pow_succ]; ring
      have level : s+1+d-(s+1) = d := by omega
      have last : (2^s*(2*(2^d*a))+leaves.length-1)/2^s = 2*(2^d*a)+1 := by
        rw [show 2^s*(2*(2^d*a))+leaves.length-1 = 2^s*(2*(2^d*a)+1)+(leaves.length-1-2^s) by
          rw [Nat.mul_add]; omega,Nat.mul_add_div (Nat.two_pow_pos s),Nat.div_eq_of_lt (by omega)]
      refine ⟨s+1,by omega,?_⟩
      rw [level,root_split h leaves big,← hs]
      by_cases left : m < 2^s
      · rw [path_left h leaves m big left,← hs,climb_append,offset]
        have first : (2^s*(2*(2^d*a))+m)/2^s = 2*(2^d*a) := by
          rw [Nat.mul_add_div (Nat.two_pow_pos s),Nat.div_eq_of_lt left,Nat.add_zero]
        have residue : (2^s*(2*(2^d*a))+m) % 2^s = m := by
          rw [Nat.mul_add_mod,Nat.mod_eq_of_lt left]
        have inside := climb_inside h s (leaves.take (2^s)) (2^s*(2*(2^d*a))+m)
          (2^s*(2*(2^d*a))+leaves.length-1) (by simp; omega) (by simp [residue]; omega)
          (by rw [first,last]; omega)
        simp only [residue] at inside
        have item : leaves.get ⟨m,index⟩ = (leaves.take (2^s)).get ⟨m,by simp; omega⟩ := by simp
        rw [item,inside,first,last,climbStep_even h _ _ _ _ (by omega) (by omega)]
        congr 1 <;> omega
      · rw [path_right h leaves m big (by rw [← hs]; omega),← hs,climb_append,offset]
        have rest : (leaves.drop (2^s)).length = leaves.length-2^s := by simp
        obtain ⟨j,lowered,edge⟩ := ih (leaves.drop (2^s)).length (by have := Nat.two_pow_pos s; omega)
          (leaves.drop (2^s)) (m-2^s) s (2*(2^d*a)+1) rfl (by omega) (by omega)
        have start : 2^s*(2*(2^d*a))+m = 2^s*(2*(2^d*a)+1)+(m-2^s) := by rw [Nat.mul_add]; omega
        have finish : 2^s*(2*(2^d*a))+leaves.length-1 =
            2^s*(2*(2^d*a)+1)+(leaves.drop (2^s)).length-1 := by rw [Nat.mul_add,rest]; omega
        have item : leaves.get ⟨m,index⟩ = (leaves.drop (2^s)).get ⟨m-2^s,by omega⟩ := by
          simp only [List.get_eq_getElem,List.getElem_drop]
          congr 1
          omega
        rw [start,finish,item,edge,climbStep_edge h (s-j) _ _ _ (by omega)]
        congr 1 <;> omega

theorem climb_path (h : Hashes α δ) (leaves : List α) (m : Nat) (index : m < leaves.length) :
    climb h ⟨m,leaves.length-1,h.leaf (leaves.get ⟨m,index⟩)⟩ (path h leaves m) = ⟨0,0,root h leaves⟩ := by
  obtain ⟨j,_,edge⟩ := climb_edge h leaves.length leaves m leaves.length 0 rfl index Nat.lt_two_pow_self.le
  simpa using edge

end Orrery.Foundation.HashTree
