import Orrery.Foundation.JsonCompare
import Orrery.Vrp.Commitment

/-! The behavioral root of receipts whose times and ids are pairwise apart. Python's order
of these keys is strict wherever it is defined, so the sorted list does not depend on the
order the receipts come in; and what padding repeats has no part in a list without
repetition, so the root tells what it was taken over. -/
namespace Orrery.Vrp
open Foundation Json

section Order

inductive Compared : Json → Json → Bool → Prop
  | str {s t : String} {b : Bool} (less : decide (s < t) = b) : Compared (.str s) (.str t) b
  | arr {values others : List Json} {b : Bool} (items : ltItems values others = .ok b) :
      Compared (.arr values) (.arr others) b
  | num {v w : Json} {p q : ℚ} {b : Bool} (left : numeric v = some p) (right : numeric w = some q)
      (less : decide (p < q) = b) : Compared v w b

theorem lt_iff (v w : Json) (b : Bool) : lt v w = .ok b ↔ Compared v w b := by
  constructor
  · intro compared
    unfold lt at compared
    split at compared
    next s t => exact .str (Except.ok.inj compared)
    next values others => exact .arr compared
    next =>
      split at compared
      next p q left right => exact .num left right (Except.ok.inj compared)
      next => cases compared
  · intro compared
    cases compared with
    | str less => exact congrArg Except.ok less
    | arr items => exact items
    | num left right less => cases v <;> cases w <;> simp_all [lt,numeric,numeral]

theorem numeric_iff (v : Json) (q : ℚ) : numeric v = some q ↔ hashKey v = .ok (.num q) := by
  cases v <;> simp [numeric,numeral,hashKey]

theorem hashKey_str (v : Json) (s : String) : hashKey v = .ok (.str s) ↔ v = .str s := by
  cases v <;> simp [hashKey]

theorem ltItems_cons (v w : Json) (values others : List Json) :
    ltItems (v :: values) (w :: others) = if pyEq v w then ltItems values others else lt v w := by
  rw [ltItems]

theorem ltItems_congr_left {values others : List Json} (distinct : ∀ v ∈ values, UniqueKeys v)
    (distinct' : ∀ w ∈ others, UniqueKeys w) (related : List.Forall₂ (fun v w => pyEq v w = true) values others)
    (items : ∀ v ∈ values, ∀ w ∈ others, pyEq v w = true → ∀ u b, lt w u = .ok b → lt v u = .ok b) :
    ∀ last b, ltItems others last = .ok b → ltItems values last = .ok b := by
  induction related with
  | nil => exact fun _ _ => id
  | @cons v w values others same _ ih =>
    intro last b compared
    cases last with
    | nil => exact compared
    | cons u last =>
      have rest := ih (fun x inside => distinct x (by simp [inside])) (fun x inside => distinct' x (by simp [inside]))
        (fun x inside y among => items x (by simp [inside]) y (by simp [among])) last b
      rw [ltItems_cons] at compared ⊢
      split at compared
      next equal => rw [if_pos (pyEq_trans v same equal),rest compared]
      next apart =>
        have back := pyEq_symm (distinct v (by simp)) (distinct' w (by simp)) same
        rw [if_neg fun equal => apart (pyEq_trans w back equal)]
        exact items v (by simp) w (by simp) same u b compared

theorem lt_congr_left {v : Json} (distinct : UniqueKeys v) : ∀ {w : Json}, UniqueKeys w → pyEq v w = true →
    ∀ u b, lt w u = .ok b → lt v u = .ok b := by
  induction distinct with
  | @arr values fine ih =>
    intro w distinct' same u b compared
    rw [pyEq_iff] at same
    cases same with
    | hashed left => cases left
    | @arr _ others related =>
      rw [lt_iff] at compared ⊢
      cases compared with
      | arr items =>
        refine .arr (ltItems_congr_left fine (fun x inside => distinct'.item inside) related ?_ _ _ items)
        exact fun x inside y among equal => ih x inside (distinct'.item among) equal
      | num left => cases left
  | obj keys fields =>
    intro w _ same u b compared
    rw [pyEq_iff] at same
    rw [lt_iff] at compared
    cases same with
    | hashed left => cases left
    | obj =>
      cases compared with
      | num left => cases left
  | _ =>
    intro w _ same u b compared
    rw [pyEq_iff] at same
    cases same with
    | hashed left right =>
      rw [lt_iff] at compared ⊢
      cases compared with
      | str less =>
        obtain rfl := Except.ok.inj right
        rw [hashKey_str] at left
        rw [left]
        exact .str less
      | arr => cases right
      | num below above less =>
        rw [numeric_iff] at below
        obtain rfl := Except.ok.inj (below.symm.trans right)
        exact .num ((numeric_iff _ _).mpr left) above less

theorem ltItems_congr_right {values others : List Json} (distinct : ∀ v ∈ values, UniqueKeys v)
    (distinct' : ∀ w ∈ others, UniqueKeys w) (related : List.Forall₂ (fun v w => pyEq v w = true) values others) :
    ∀ (first : List Json), (∀ u ∈ first, ∀ v ∈ values, ∀ w ∈ others, pyEq v w = true → ∀ b, lt u v = .ok b →
      lt u w = .ok b) → ∀ b, ltItems first values = .ok b → ltItems first others = .ok b := by
  induction related with
  | nil => exact fun _ _ _ => id
  | @cons v w values others same _ ih =>
    intro first items b compared
    cases first with
    | nil => exact compared
    | cons u first =>
      have rest := ih (fun x inside => distinct x (by simp [inside])) (fun x inside => distinct' x (by simp [inside]))
        first (fun x inside y among z within => items x (by simp [inside]) y (by simp [among]) z (by simp [within])) b
      rw [ltItems_cons] at compared ⊢
      split at compared
      next equal => rw [if_pos (pyEq_trans u equal same),rest compared]
      next apart =>
        have back := pyEq_symm (distinct v (by simp)) (distinct' w (by simp)) same
        rw [if_neg fun equal => apart (pyEq_trans u equal back)]
        exact items u (by simp) v (by simp) w (by simp) same b compared

theorem lt_congr_right (u : Json) : ∀ {v w : Json}, UniqueKeys v → UniqueKeys w → pyEq v w = true →
    ∀ b, lt u v = .ok b → lt u w = .ok b := by
  induction u using byMembers with
  | arr values ih =>
    intro v w distinct distinct' same b compared
    rw [lt_iff] at compared ⊢
    rw [pyEq_iff] at same
    cases compared with
    | arr items =>
      cases same with
      | hashed left => cases left
      | arr related =>
        refine .arr (ltItems_congr_right (fun x inside => distinct.item inside) (fun x inside => distinct'.item inside)
          related values ?_ b items)
        exact fun x inside y among z within => ih x inside (distinct.item among) (distinct'.item within)
    | num left => cases left
  | str s =>
    intro v w _ _ same b compared
    rw [lt_iff] at compared ⊢
    rw [pyEq_iff] at same
    cases compared with
    | str less =>
      cases same with
      | hashed left right =>
        obtain rfl := Except.ok.inj left
        rw [hashKey_str] at right
        rw [right]
        exact .str less
    | num left => cases left
  | _ =>
    intro v w _ _ same b compared
    rw [lt_iff] at compared ⊢
    rw [pyEq_iff] at same
    cases compared with
    | num below above less =>
      cases same with
      | hashed left right =>
        rw [numeric_iff] at above
        obtain rfl := Except.ok.inj (above.symm.trans left)
        exact .num below ((numeric_iff _ _).mpr right) less
      | _ => cases above

theorem ltItems_turned {values : List Json} (distinct : ∀ v ∈ values, UniqueKeys v)
    (items : ∀ v ∈ values, ∀ w, UniqueKeys w → (lt v w = .ok true → lt w v = .ok false) ∧
      (lt v w = .ok false → pyEq v w = true ∨ lt w v = .ok true)) :
    ∀ others : List Json, (∀ w ∈ others, UniqueKeys w) →
      (ltItems values others = .ok true → ltItems others values = .ok false) ∧
      (ltItems values others = .ok false → pyEqItems values others = true ∨ ltItems others values = .ok true) := by
  induction values with
  | nil =>
    intro others _
    cases others <;> simp [ltItems,pyEqItems]
  | cons v values ih =>
    intro others distinct'
    cases others with
    | nil => simp [ltItems]
    | cons w others =>
      have rest := ih (fun x inside => distinct x (by simp [inside])) (fun x inside => items x (by simp [inside])) others
        fun x inside => distinct' x (by simp [inside])
      have here := items v (by simp) w (distinct' w (by simp))
      have turned : pyEq w v = pyEq v w := by
        rw [Bool.eq_iff_iff]
        exact ⟨pyEq_symm (distinct' w (by simp)) (distinct v (by simp)),
          pyEq_symm (distinct v (by simp)) (distinct' w (by simp))⟩
      rw [ltItems_cons,ltItems_cons,turned,pyEqItems]
      by_cases equal : pyEq v w = true
      · simpa [equal] using rest
      · simpa [equal] using here

theorem lt_turned {v : Json} (distinct : UniqueKeys v) : ∀ w, UniqueKeys w → (lt v w = .ok true → lt w v = .ok false) ∧
    (lt v w = .ok false → pyEq v w = true ∨ lt w v = .ok true) := by
  induction distinct with
  | @arr values fine ih =>
    intro w distinct'
    cases w with
    | arr others => exact ltItems_turned fine (fun x inside => ih x inside) others fun x inside => distinct'.item inside
    | _ => simp [lt,numeric,numeral]
  | str s =>
    intro w _
    cases w with
    | str t =>
      simp only [lt,pyEq,hashKey,Except.ok.injEq,decide_eq_true_eq,decide_eq_false_iff_not,Key.str.injEq]
      exact ⟨lt_asymm,fun above => (not_lt.mp above).eq_or_lt.imp Eq.symm id⟩
    | _ => simp [lt,numeric,numeral]
  | _ =>
    intro w _
    constructor
    · intro below
      rw [lt_iff] at below ⊢
      cases below with
      | num left right less => exact .num right left (decide_eq_false (lt_asymm (of_decide_eq_true less)))
    · intro level
      rw [lt_iff] at level
      rw [lt_iff,pyEq_iff]
      cases level with
      | num left right less =>
        rcases (not_lt.mp (of_decide_eq_false less)).eq_or_lt with same | above
        · exact .inl (.hashed ((numeric_iff _ _).mp left) ((numeric_iff _ _).mp (same ▸ right)))
        · exact .inr (.num right left (decide_eq_true above))

theorem ltItems_trans {values : List Json} (distinct : ∀ v ∈ values, UniqueKeys v)
    (items : ∀ v ∈ values, ∀ w u, UniqueKeys w → UniqueKeys u → lt v w = .ok true → lt w u = .ok true →
      lt v u = .ok true) :
    ∀ others last : List Json, (∀ w ∈ others, UniqueKeys w) → (∀ u ∈ last, UniqueKeys u) →
      ltItems values others = .ok true → ltItems others last = .ok true → ltItems values last = .ok true := by
  induction values with
  | nil =>
    intro others last _ _ below above
    cases others with
    | nil => cases below
    | cons w others =>
      cases last with
      | nil => cases above
      | cons u last => rfl
  | cons v values ih =>
    intro others last distinct' distinct'' below above
    cases others with
    | nil => cases below
    | cons w others =>
      cases last with
      | nil => cases above
      | cons u last =>
        have fine := distinct v (by simp)
        have fine' := distinct' w (by simp)
        have fine'' := distinct'' u (by simp)
        rw [ltItems_cons] at below above ⊢
        by_cases first : pyEq v w = true
        · rw [if_pos first] at below
          by_cases second : pyEq w u = true
          · rw [if_pos second] at above
            rw [if_pos (pyEq_trans v first second)]
            exact ih (fun x inside => distinct x (by simp [inside])) (fun x inside => items x (by simp [inside])) others
              last (fun x inside => distinct' x (by simp [inside])) (fun x inside => distinct'' x (by simp [inside]))
              below above
          · rw [if_neg second] at above
            rw [if_neg fun equal => second (pyEq_trans w (pyEq_symm fine fine' first) equal)]
            exact lt_congr_left fine fine' first u true above
        · rw [if_neg first] at below
          by_cases second : pyEq w u = true
          · rw [if_neg fun equal => first (pyEq_trans v equal (pyEq_symm fine' fine'' second))]
            exact lt_congr_right v fine' fine'' second true below
          · rw [if_neg second] at above
            have apart : ¬ pyEq v u = true := by
              intro equal
              have back := lt_congr_right w fine'' fine (pyEq_symm fine fine'' equal) true above
              rw [(lt_turned fine w fine').1 below] at back
              cases back
            rw [if_neg apart]
            exact items v (by simp) w u fine' fine'' below above

theorem lt_trans_ok {v : Json} (distinct : UniqueKeys v) : ∀ w u, UniqueKeys w → UniqueKeys u → lt v w = .ok true →
    lt w u = .ok true → lt v u = .ok true := by
  induction distinct with
  | @arr values fine ih =>
    intro w u distinct' distinct'' below above
    rw [lt_iff] at below above ⊢
    cases below with
    | arr items =>
      cases above with
      | arr items' =>
        exact .arr (ltItems_trans fine (fun x inside => ih x inside) _ _ (fun x inside => distinct'.item inside)
          (fun x inside => distinct''.item inside) items items')
      | num left => cases left
    | num left => cases left
  | str s =>
    intro w u _ _ below above
    rw [lt_iff] at below above ⊢
    cases below with
    | str less =>
      cases above with
      | str less' => exact .str (decide_eq_true (lt_trans (of_decide_eq_true less) (of_decide_eq_true less')))
      | num left => cases left
    | num left => cases left
  | _ =>
    intro w u _ _ below above
    rw [lt_iff] at below above ⊢
    cases below with
    | num left right less =>
      cases above with
      | num left' right' less' =>
        obtain rfl := Option.some.inj (right.symm.trans left')
        exact .num left right' (decide_eq_true (lt_trans (of_decide_eq_true less) (of_decide_eq_true less')))
      | _ => cases right

theorem ltItems_ranks : Ranks ltItems (fun values others => pyEqItems values others = true)
    (fun values => ∀ v ∈ values, UniqueKeys v) where
  trans _ others last fine fine' fine'' :=
    ltItems_trans fine (fun v inside => lt_trans_ok (fine v inside)) others last fine' fine''
  asymm _ others fine fine' := (ltItems_turned fine (fun v inside => lt_turned (fine v inside)) others fine').1
  total _ others fine fine' := (ltItems_turned fine (fun v inside => lt_turned (fine v inside)) others fine').2

end Order

def KeysApart (receipt other : Dict) : Prop := pyEqItems (sortKey receipt) (sortKey other) = false

def receiptLeaves (host : Host) (receipts : List Dict) : List Bytes := (leafEncodings host receipts).toOption.getD []

def receiptsHashed (host : Host) (receipts : List Dict) : List Bytes :=
  (PaddedTree.hashed (hashes host) (receiptLeaves host receipts)).map preimage

section Keys

theorem sortKey_distinct {receipt : Dict} (distinct : UniqueKeys (.obj receipt)) : ∀ v ∈ sortKey receipt, UniqueKeys v := by
  have field : ∀ key, UniqueKeys ((get receipt key).getD (.str "")) := by
    intro key
    cases found : get receipt key with
    | none => exact .str ""
    | some v => exact distinct.get found
  simp [sortKey,field]

theorem keysApart_symm {receipt other : Dict} (distinct : UniqueKeys (.obj receipt)) (distinct' : UniqueKeys (.obj other))
    (apart : KeysApart receipt other) : KeysApart other receipt := by
  by_contra equal
  have same := (pyEqItems_iff _ _).mp (Bool.eq_true_of_not_eq_false equal)
  have back : List.Forall₂ (fun v w => pyEq v w = true) (sortKey receipt) (sortKey other) := by
    refine List.forall₂_iff_get.mpr ⟨same.length_eq.symm,?_⟩
    intro i here there
    exact pyEq_symm (sortKey_distinct distinct' _ (List.get_mem _ _)) (sortKey_distinct distinct _ (List.get_mem _ _))
      (List.forall₂_iff_get.mp same |>.2 i there here)
  rw [KeysApart,(pyEqItems_iff _ _).mpr back] at apart
  cases apart

theorem keysAlike {receipt other : Dict} (distinct : UniqueKeys (.obj receipt)) (distinct' : UniqueKeys (.obj other))
    (fields : AlikeFields receipt other) : ¬ KeysApart receipt other := by
  have field : ∀ key, pyEq ((get receipt key).getD (.str "")) ((get other key).getD (.str "")) = true := by
    intro key
    have related := fields key
    cases found : get receipt key with
    | none =>
      cases found' : get other key with
      | none => simp [pyEq,hashKey]
      | some w =>
        rw [found,found'] at related
        cases related
    | some v =>
      cases found' : get other key with
      | none =>
        rw [found,found'] at related
        cases related
      | some w =>
        rw [found,found'] at related
        cases related with
        | some alike => exact pyEq_of_alike (distinct.get found) (distinct'.get found') alike
  simp [KeysApart,sortKey,pyEqItems,field]

end Keys

section Canonical
variable {host : Host} {receipts others : List Dict}

theorem keysApart_perm {moved : List Dict} (fine : ∀ r ∈ receipts, UniqueKeys (.obj r))
    (apart : receipts.Pairwise KeysApart) (permuted : moved.Perm receipts) :
    moved.Pairwise fun receipt other => KeysApart receipt other ∧ KeysApart other receipt := by
  have both : receipts.Pairwise fun receipt other => KeysApart receipt other ∧ KeysApart other receipt :=
    apart.imp_of_mem fun inside inside' keys => ⟨keys,keysApart_symm (fine _ inside) (fine _ inside') keys⟩
  exact (permuted.pairwise_iff And.symm).mpr both

theorem orderedReceipts_perm {moved : List Dict} (fine : ∀ r ∈ receipts, UniqueKeys (.obj r))
    (apart : receipts.Pairwise KeysApart) (permuted : receipts.Perm moved) {ordered : List Dict}
    (run : orderedReceipts receipts = .ok ordered) : orderedReceipts moved = .ok ordered := by
  have unequal : ∀ {list : List Dict}, list.Perm receipts →
      list.Pairwise fun receipt other => ¬ pyEqItems (sortKey other) (sortKey receipt) = true :=
    fun moved => (keysApart_perm fine apart moved).imp fun keys => by simpa [KeysApart] using keys.2
  exact ltItems_ranks.sortBy_congr (fun r inside => sortKey_distinct (fine r inside)) unequal permuted run

theorem behavioralMerkleRoot_perm {moved : List Dict} (fine : ∀ r ∈ receipts, UniqueKeys (.obj r))
    (apart : receipts.Pairwise KeysApart) (permuted : receipts.Perm moved) {root : Option String}
    (run : behavioralMerkleRoot host receipts = .ok root) : behavioralMerkleRoot host moved = .ok root := by
  obtain ⟨hashed,run,rest⟩ := bind_success _ _ _ run
  obtain ⟨encodings,run,rest'⟩ := bind_success _ _ _ run
  obtain ⟨ordered,run,encoded⟩ := bind_success _ _ _ run
  rw [behavioralMerkleRoot,orderedLeafHashes,leafEncodings,orderedReceipts_perm fine apart permuted run,ok_bind,encoded,
    ok_bind]
  obtain rfl := Except.ok.inj rest'
  exact rest

theorem receiptLeaves_nodup {encodings : List Bytes} (canonical : Canonical host (· ∈ receipts))
    (fine : ∀ r ∈ receipts, UniqueKeys (.obj r)) (apart : receipts.Pairwise KeysApart)
    (encoded : leafEncodings host receipts = .ok encodings) : encodings.Nodup := by
  obtain ⟨ordered,sorted,encoded⟩ := bind_success _ _ _ encoded
  have moved := sortBy_perm sorted
  apply (mapM_reads encoded).nodup
  refine (keysApart_perm fine apart moved).imp_of_mem ?_
  intro receipt other inside inside' keys bytes here there
  have among := moved.mem_iff.mp inside
  have among' := moved.mem_iff.mp inside'
  have alike := canonical.injective other receipt bytes among' among there here
  apply keysAlike (fine other among') (fine receipt among) alike
  exact keys.2

/-- The root is a function of the receipts taken as a set, and tells which set that was. -/
theorem behavioralRoot_canonical (receipts others : List Dict) (fine : ∀ r ∈ receipts ++ others, UniqueKeys (.obj r))
    (apart : receipts.Pairwise KeysApart) (apart' : others.Pairwise KeysApart) :
    (∀ moved, receipts.Perm moved → ∀ root, behavioralMerkleRoot host receipts = .ok root ↔
      behavioralMerkleRoot host moved = .ok root) ∧
    (Merkle.CollisionFree host.sha256 (receiptsHashed host receipts ++ receiptsHashed host others) →
      (∀ leaf ∈ receiptLeaves host receipts ++ receiptLeaves host others, 64 < leaf.length) →
      Canonical host (· ∈ receipts ++ others) → ∀ root, behavioralMerkleRoot host receipts = .ok root →
      behavioralMerkleRoot host others = .ok root → Matched AlikeFields receipts others) := by
  have here : ∀ r ∈ receipts, UniqueKeys (.obj r) := fun r inside => fine r (List.mem_append_left _ inside)
  have there : ∀ r ∈ others, UniqueKeys (.obj r) := fun r inside => fine r (List.mem_append_right _ inside)
  refine ⟨?_,?_⟩
  · intro moved permuted root
    have fine' : ∀ r ∈ moved, UniqueKeys (.obj r) := fun r inside => here r (permuted.mem_iff.mpr inside)
    have keys : moved.Pairwise KeysApart := (keysApart_perm here apart permuted.symm).imp And.left
    exact ⟨behavioralMerkleRoot_perm here apart permuted,behavioralMerkleRoot_perm fine' keys permuted.symm⟩
  · intro free long canonical root run run'
    obtain ⟨hashed,leaf,_⟩ := bind_success _ _ _ run
    obtain ⟨hashed',leaf',_⟩ := bind_success _ _ _ run'
    obtain ⟨encodings,encoded,_⟩ := bind_success _ _ _ leaf
    obtain ⟨encodings',encoded',_⟩ := bind_success _ _ _ leaf'
    have known : receiptLeaves host receipts = encodings := by simp [receiptLeaves,encoded,Except.toOption]
    have known' : receiptLeaves host others = encodings' := by simp [receiptLeaves,encoded',Except.toOption]
    rw [receiptsHashed,receiptsHashed,known,known'] at free
    rw [known,known'] at long
    have distinct : encodings.Nodup :=
      receiptLeaves_nodup (canonical.mono fun _ inside => List.mem_append_left _ inside) here apart encoded
    have distinct' : encodings'.Nodup :=
      receiptLeaves_nodup (canonical.mono fun _ inside => List.mem_append_right _ inside) there apart' encoded'
    have separate := hashed_apart free long (List.subset_append_left _ _) (List.subset_append_right _ _)
    rw [behavioralMerkleRoot_eq encoded,← run',behavioralMerkleRoot_eq encoded'] at run
    have roots := Option.map_injective (fun _ _ => rootText_inj) (Except.ok.inj run)
    have same := PaddedTree.tree_inj_of_nodup distinct distinct' (PaddedTree.tree_eq_of_root _ _ _ separate roots)
    exact leaves_matched canonical (fun _ inside => inside) encoded (same ▸ encoded')

end Canonical

section Sample

theorem purchase_distinct (receiptId : String) : UniqueKeys (.obj (purchase receiptId)) := by
  have action : UniqueKeys (.obj [("category",.str "purchase")]) :=
    .obj (by simp) fun field inside => by simpa using (List.mem_singleton.mp inside) ▸ UniqueKeys.str "purchase"
  refine .obj (by simp [purchase]) ?_
  simp [purchase,action,UniqueKeys.str]

theorem purchases_apart {receiptIds : List String} (unlike : receiptIds.Nodup) :
    (receiptIds.map purchase).Pairwise KeysApart := by
  rw [List.pairwise_map]
  refine unlike.imp ?_
  intro receiptId other apart
  have ids : pyEq (.str receiptId) (.str other) = false := by simpa [pyEq,hashKey] using apart
  simp [KeysApart,sortKey,purchase,Json.get,pyEqItems,ids]

theorem purchases_strings {receiptIds : List String} : receiptsHashed sampleHost (receiptIds.map purchase) =
    rootHashed sampleHost (purchases receiptIds) := by
  rw [rootHashed,leaves,purchases_receipts]
  rfl

/-- Three purchases, and the same three turned round. -/
theorem purchases_canonical :
    behavioralMerkleRoot sampleHost (["a","b","c"].map purchase) = .ok (some (rootText purchasesTop)) ∧
    behavioralMerkleRoot sampleHost (["c","b","a"].map purchase) = .ok (some (rootText purchasesTop)) ∧
    Matched AlikeFields (["a","b","c"].map purchase) (["c","b","a"].map purchase) := by
  have fine : ∀ r ∈ ["a","b","c"].map purchase ++ ["c","b","a"].map purchase, UniqueKeys (.obj r) := by
    simp [purchase_distinct]
  have canonical := @behavioralRoot_canonical sampleHost _ _ fine (purchases_apart (by decide)) (purchases_apart (by decide))
  have root : behavioralMerkleRoot sampleHost (["a","b","c"].map purchase) = .ok (some (rootText purchasesTop)) := by
    rw [behavioralMerkleRoot_eq three_encoded,purchases_rooted (tree_three _ _ _)]
    rfl
  have permuted : (["a","b","c"].map purchase).Perm (["c","b","a"].map purchase) :=
    List.Perm.map purchase (by decide)
  have turned := (canonical.1 _ permuted _).mp root
  refine ⟨root,turned,canonical.2 ?_ ?_ ?_ _ root turned⟩
  · rw [purchases_strings,purchases_strings]
    exact purchases_free (purchases_hashed three_encoded (tree_three _ _ _))
      (purchases_hashed reversed_encoded (tree_three _ _ _))
  · rw [receiptLeaves,receiptLeaves,three_encoded,reversed_encoded]
    intro leaf inside
    exact purchase_long leaf ((List.mem_append.mp inside).elim id id)
  · rw [← List.map_append]
    exact (purchases_read (by decide)).canonical.mono fun _ => .receipt

end Sample

end Orrery.Vrp
