import Orrery.Chapter.SqlStatements
import Orrery.Foundation.Sweeps

/-! What a request to the data layer says, and that its text says nothing else. -/
namespace Orrery.Chapter
open Foundation Json
open Foundation.Sql

section Values
variable (py : PyText)

def intLit (i : Int) : Lit := .number (decide (i < 0)) (Nat.toDigits 10 i.natAbs) (numeral_digits _)

theorem intText_eq (i : Int) : intText i = (intLit i).sql := by
  cases i with
  | ofNat n => simp [intText,intLit,Lit.sql,toString,Int.repr,Nat.repr]
  | negSucc n => simp [intText,intLit,Lit.sql,toString,Int.repr,Nat.repr]

def floatDigits (q : ℚ) : List Char := if q < 0 then (py.floatRepr q).drop 1 else py.floatRepr q

theorem floatDigits_spec (q : ℚ) : Numeral (floatDigits py q) ∧
    py.floatRepr q = if q < 0 then '-' :: floatDigits py q else floatDigits py q := by
  obtain ⟨text,numeral,repr⟩ := py.floatRepr_numeral q
  rw [floatDigits,repr]
  split
  · exact ⟨numeral,rfl⟩
  · exact ⟨numeral,rfl⟩

def jsonbType : ColType := ⟨⟨.plain 'j' "sonb".toList rfl (List.all_eq_true.mp (by decide)),[]⟩,[],false⟩

def litOf : Json → Lit
  | .null => .null
  | .bool b => .bool b
  | .int i => intLit i
  | .float q => .number (decide (q < 0)) (floatDigits py q) (floatDigits_spec py q).1
  | .str s => .string s.toList
  | .arr items => .cast (jsonText py (.arr items)) jsonbType
  | .obj fields => .cast (jsonText py (.obj fields)) jsonbType

theorem litText_eq (v : Json) : litText py v = (litOf py v).sql := by
  cases v with
  | null => rfl
  | bool b => rfl
  | int i => exact intText_eq i
  | float q => simpa [litOf,Lit.sql,litText] using (floatDigits_spec py q).2
  | str s => rfl
  | arr items => simp [litText,litOf,Lit.sql,jsonbType,ColType.text,TypeWord.text,TypeName.text,sizesText,moreText]
  | obj fields => simp [litText,litOf,Lit.sql,jsonbType,ColType.text,TypeWord.text,TypeName.text,sizesText,moreText]

def ColType.name (t : ColType) : String := String.ofList t.text

def vectorText (inner : List (List Char)) : List Char := '[' :: (joinWith "," inner ++ [']'])

def membersOf : Json → List Json
  | .arr items => items
  | other => [other]

def jsonLit (v : Json) (t : ColType) : Lit :=
  if t.name = "jsonb" ∨ t.name = "json" then .cast (jsonText py v) t else litOf py v

def cellOf (v : Json) (coltype : Option ColType) : Except Exc Cell :=
  match v, coltype with
  | .null, _ => .ok (.one .null)
  | v, none => .ok (.one (litOf py v))
  | v, some t =>
    if "[]".toList <:+ t.text then .ok (.array ((membersOf v).map (litOf py)) t)
    else match v with
      | .arr items =>
        if baseType t.name = "vector".toList then do
          let inner ← items.mapM py.floatText
          return .one (.cast (vectorText inner) t)
        else .ok (.one (jsonLit py v t))
      | .obj _ => .ok (.one (jsonLit py v t))
      | other => .ok (.one (litOf py other))

theorem mem_joinWith {c : Char} {separator : String} {texts : List (List Char)}
    (inside : c ∈ joinWith separator texts) : c ∈ separator.toList ∨ ∃ text ∈ texts, c ∈ text := by
  induction texts with
  | nil => cases inside
  | cons first texts ih =>
    cases texts with
    | nil => exact .inr ⟨first,.head _,by simpa [joinWith,List.intercalate,List.intersperse] using inside⟩
    | cons second texts =>
      rw [joinWith_cons,List.mem_append,List.mem_append] at inside
      obtain here | between | behind := inside
      · exact .inr ⟨first,.head _,here⟩
      · exact .inl between
      · refine (ih behind).imp_right ?_
        rintro ⟨text,listed,inside⟩
        exact ⟨text,.tail _ listed,inside⟩

theorem vectorText_unquoted {items : List Json} {inner : List (List Char)} (run : items.mapM py.floatText = .ok inner) :
    '\'' ∉ vectorText inner := by
  have reads := mapM_reads run
  intro inside
  simp only [vectorText,List.mem_cons,List.mem_append,List.not_mem_nil,or_false] at inside
  obtain open_ | within | close := inside
  · exact absurd open_ (by decide)
  · obtain between | ⟨text,listed,within⟩ := mem_joinWith within
    · exact absurd between (by decide)
    · obtain ⟨item,_,read⟩ := reads.mem listed
      exact py.floatText_unquoted item text read within
  · exact absurd close (by decide)

theorem jsonLit_sql (v : Json) (t : ColType) : (if t.name = "jsonb" ∨ t.name = "json" then
    quoteText (jsonText py v) ++ "::".toList ++ t.text else litText py v) = (jsonLit py v t).sql := by
  rw [jsonLit]
  split
  · rfl
  · exact litText_eq py v

theorem array_sql (items : List Json) (t : ColType) : "ARRAY[".toList ++ joinWith ", " (items.map (litText py)) ++
    "]::".toList ++ t.text = (Cell.array (items.map (litOf py)) t).sql := by
  have texts : items.map (litText py) = (items.map (litOf py)).map Lit.sql := by
    rw [List.map_map]
    exact List.map_congr_left fun v _ => litText_eq py v
  rw [texts,List.append_assoc,List.append_assoc]
  rfl

theorem vector_sql {items : List Json} {inner : List (List Char)} (t : ColType) (run : items.mapM py.floatText = .ok inner) :
    "'[".toList ++ joinWith "," inner ++ "]'::".toList ++ t.text = (Lit.cast (vectorText inner) t).sql := by
  have plain := double_plain (vectorText_unquoted py run)
  rw [Lit.sql,quoteText,plain]
  simp [vectorText]

theorem litFor_eq (v : Json) (coltype : Option ColType) :
    litFor py v (coltype.map ColType.name) = Cell.sql <$> cellOf py v coltype := by
  have chars (t : ColType) : t.name.toList = t.text := by simp [ColType.name]
  cases coltype with
  | none =>
    rw [Option.map_none]
    cases v with
    | null => rfl
    | _ => exact congrArg Except.ok (litText_eq py _)
  | some t =>
    rw [Option.map_some]
    by_cases array : "[]".toList <:+ t.text
    · cases v with
      | null => rfl
      | _ =>
        simp only [litFor,cellOf,chars,if_pos array]
        exact congrArg Except.ok (array_sql py _ t)
    · cases v with
      | null => rfl
      | arr items =>
        simp only [litFor,cellOf,chars,if_neg array]
        by_cases vector : baseType t.name = "vector".toList
        · rw [if_pos vector,if_pos vector]
          cases run : items.mapM py.floatText with
          | error e => rfl
          | ok inner => exact congrArg Except.ok (vector_sql py t run)
        · rw [if_neg vector,if_neg vector]
          have written := jsonLit_sql py (.arr items) t
          split at written
          next typed => rw [if_pos typed]; exact congrArg Except.ok written
          next other => rw [if_neg other]; exact congrArg Except.ok written
      | obj fields =>
        simp only [litFor,cellOf,chars,if_neg array]
        have written := jsonLit_sql py (.obj fields) t
        split at written
        next typed => rw [if_pos typed]; exact congrArg Except.ok written
        next other => rw [if_neg other]; exact congrArg Except.ok written
      | _ =>
        simp only [litFor,cellOf,chars,if_neg array]
        exact congrArg Except.ok (litText_eq py _)

end Values

theorem map_mapM {α β γ : Type} (f : β → γ) {text : α → Except Exc γ} {read : α → Except Exc β} (items : List α)
    (each : ∀ item ∈ items, text item = f <$> read item) : items.mapM text = List.map f <$> items.mapM read := by
  induction items with
  | nil => rfl
  | cons item items ih =>
    have behind := ih fun other inside => each other (.tail _ inside)
    rw [List.mapM_cons,List.mapM_cons,each item (.head _),behind]
    cases read item with
    | error e => rfl
    | ok value => cases items.mapM read <;> rfl

section Filters
variable (py : PyText)

def signs : List (String × Sign) := [("eq",.eq),("neq",.neq),("gt",.gt),("gte",.gte),("lt",.lt),("lte",.lte)]

theorem lookup_signs (op : String) :
    operators.lookup op = (signs.lookup op).map fun sign => String.ofList sign.text := by
  have table : operators = signs.map fun entry => (entry.1,String.ofList entry.2.text) := by decide
  have mapped (entries : List (String × Sign)) : (entries.map fun entry => (entry.1,String.ofList entry.2.text)).lookup op =
      (entries.lookup op).map fun sign => String.ofList sign.text := by
    induction entries with
    | nil => rfl
    | cons entry entries ih =>
      obtain ⟨name,sign⟩ := entry
      cases found : op == name <;> simp [List.lookup_cons,found,ih]
  rw [table,mapped]

def isLit (val : List Char) : Lit :=
  let low := py.unicode.lowercase val
  if low = "null".toList then .null
  else if low = "true".toList then .bool true
  else if low = "false".toList then .bool false
  else .string val

def inLits (val : List Char) : List Lit :=
  let items := ((unwrapped val).splitOn ',').filter (· ≠ [])
  if items.isEmpty then [.null] else items.map .string

def filterFromOf (col : List Char) : ℕ → List Char → Except Exc Pred
  | 0, raw => .error (unsupported py [] raw)
  | fuel+1, raw => do
    let c ← nameOf py col
    let (op,val) := partition '.' raw
    if op = "not".toList then
      let inner ← filterFromOf col fuel val
      return .negated inner
    if op = "is".toList then return .is c (isLit py val)
    if op = "in".toList then return .isIn c (inLits val)
    match signs.lookup (String.ofList op) with
    | some sign => return .compare c sign (.string val)
    | none => .error (unsupported py op raw)

theorem isText_eq (c : Name) (val : List Char) :
    (if py.unicode.lowercase val = "null".toList then Except.ok (c.text ++ " IS NULL".toList)
      else if py.unicode.lowercase val = "true".toList then .ok (c.text ++ " IS TRUE".toList)
      else if py.unicode.lowercase val = "false".toList then .ok (c.text ++ " IS FALSE".toList)
      else .ok (c.text ++ " IS ".toList ++ quoteText val) : Except Exc (List Char)) = .ok (Pred.is c (isLit py val)).sql := by
  dsimp only [isLit]
  split
  · rfl
  · split
    · rfl
    · split
      · rfl
      · exact congrArg Except.ok (List.append_assoc _ _ _)

theorem inText_eq (c : Name) (val : List Char) {items : List (List Char)}
    (named : items = ((unwrapped val).splitOn ',').filter (· ≠ [])) :
    c.text ++ " IN (".toList ++ (if items.isEmpty then "NULL".toList else joinWith ", " (items.map quoteText)) ++ ")".toList =
      (Pred.isIn c (inLits val)).sql := by
  dsimp only [inLits]
  rw [List.append_assoc,List.append_assoc,← named]
  split
  · rfl
  · rw [Pred.sql,List.map_map]
    rfl

theorem filterFrom_eq (col : List Char) (fuel : ℕ) (raw : List Char) :
    filterFrom py col fuel raw = Pred.sql <$> filterFromOf py col fuel raw := by
  induction fuel generalizing raw with
  | zero => rfl
  | succ fuel ih =>
    rw [filterFrom,filterFromOf,identText_eq]
    cases nameOf py col with
    | error e => rfl
    | ok c =>
      simp only [Functor.map,Except.map,bind,Except.bind,pure,Except.pure]
      split
      next negated =>
        rw [ih]
        cases filterFromOf py col fuel (partition '.' raw).2 with
        | error e => rfl
        | ok inner => exact congrArg Except.ok (List.append_assoc _ _ _)
      next other =>
        split
        next is_ => exact isText_eq py c _
        next other =>
          split
          next in_ => exact congrArg Except.ok (inText_eq c _ rfl)
          next other =>
            rw [lookup_signs]
            cases signs.lookup (String.ofList (partition '.' raw).1) with
            | none => rfl
            | some sign => simp [Pred.sql,Lit.sql]

def filterOf (col raw : List Char) : Except Exc Pred := filterFromOf py col (raw.length+1) raw

theorem filterText_eq (col raw : List Char) : filterText py col raw = Pred.sql <$> filterOf py col raw :=
  filterFrom_eq py col _ raw

def compoundOf (kind : String) (raw : List Char) : Except Exc Clause := do
  let preds ← (splitTopCommas (unwrapped raw)).mapM fun part => filterOf py (partition '.' part).1 (partition '.' part).2
  return .group (decide (kind = "or")) preds

theorem compoundText_eq (kind : String) (raw : List Char) :
    compoundText py kind raw = Clause.sql <$> compoundOf py kind raw := by
  rw [compoundText,compoundOf,map_mapM Pred.sql _ fun part _ => filterText_eq py _ _]
  cases (splitTopCommas (unwrapped raw)).mapM fun part => filterOf py (partition '.' part).1 (partition '.' part).2 with
  | error e => rfl
  | ok preds =>
    refine congrArg Except.ok ?_
    rw [Clause.sql,List.append_assoc]
    by_cases or_ : kind = "or" <;> simp [or_]

def clauseOf (param : String × Json) : Except Exc Clause :=
  if param.1 = "and" ∨ param.1 = "or" then compoundOf py param.1 (py.str param.2).toList
  else Clause.one <$> filterOf py param.1.toList (py.str param.2).toList

theorem clauseText_eq (param : String × Json) : clauseText py param = Clause.sql <$> clauseOf py param := by
  rw [clauseText,clauseOf]
  split
  · exact compoundText_eq py _ _
  · rw [filterText_eq]
    cases filterOf py param.1.toList (py.str param.2).toList <;> rfl

def clausesOf (params : Dict) : Except Exc (List Clause) :=
  (params.filter fun param => param.1 ∉ reserved).mapM (clauseOf py)

theorem whereText_eq (params : Dict) : whereText py params = filtersSql <$> clausesOf py params := by
  rw [whereText,clausesOf,map_mapM Clause.sql _ fun param _ => clauseText_eq py param]
  cases (params.filter fun param => param.1 ∉ reserved).mapM (clauseOf py) with
  | error e => rfl
  | ok clauses => cases clauses <;> rfl

def orderPartOf (part : List Char) : Except Exc (Name × Bool) := do
  let name ← nameOf py (partition '.' part).1
  return (name,decide ("desc".toList <+: py.unicode.lowercase (partition '.' part).2))

def orderOf (params : Dict) : Except Exc (Option (List (Name × Bool))) :=
  match (get params "order").filter truthy with
  | none => .ok none
  | some spec => some <$> ((py.str spec).toList.splitOn ',').mapM (orderPartOf py)

theorem orderPart_eq (part : List Char) : orderPart py part =
    (fun item : Name × Bool => item.1.text ++ (" ".toList ++ (if item.2 then "DESC" else "ASC").toList)) <$>
      orderPartOf py part := by
  rw [orderPart,orderPartOf]
  dsimp only
  rw [identText_eq]
  cases nameOf py (partition '.' part).1 with
  | error e => rfl
  | ok name =>
    refine congrArg Except.ok ?_
    by_cases desc : "desc".toList <+: py.unicode.lowercase (partition '.' part).2
    · rw [if_pos desc,decide_eq_true desc]
      exact congrArg (name.text ++ ·) (by simp : " DESC".toList = " ".toList ++ "DESC".toList)
    · rw [if_neg desc,decide_eq_false desc]
      exact congrArg (name.text ++ ·) (by simp : " ASC".toList = " ".toList ++ "ASC".toList)

theorem orderText_eq (params : Dict) : orderText py params = orderSql <$> orderOf py params := by
  rw [orderText,orderOf]
  cases (get params "order").filter truthy with
  | none => rfl
  | some spec =>
    dsimp only
    rw [map_mapM _ _ fun part _ => orderPart_eq py part]
    cases ((py.str spec).toList.splitOn ',').mapM (orderPartOf py) <;> rfl

def limitOf (params : Dict) : Except Exc (Option Lit) :=
  match get params "limit" with
  | none | some .null => .ok none
  | some lim => do
    let count ← py.int lim
    return some (intLit count)

theorem limit_some (lim : Json) : (do
      let count ← py.int lim
      return " LIMIT ".toList ++ intText count : Except Exc (List Char)) =
    limitSql <$> (do
      let count ← py.int lim
      return some (intLit count) : Except Exc (Option Lit)) := by
  cases py.int lim with
  | error e => rfl
  | ok count => exact congrArg (fun text => Except.ok (" LIMIT ".toList ++ text)) (intText_eq count)

theorem limitText_eq (params : Dict) : limitText py params = limitSql <$> limitOf py params := by
  rw [limitText,limitOf]
  cases get params "limit" with
  | none => rfl
  | some lim =>
    cases lim with
    | null => rfl
    | _ => exact limit_some py _

def colsOf (params : Dict) : Except Exc (Option (List Name)) :=
  match (get params "select").filter truthy with
  | none => .ok none
  | some sel => if eqStr (some sel) "*" then .ok none else some <$> (strippedCols (py.str sel).toList).mapM (nameOf py)

theorem selectCols_eq (params : Dict) : selectCols py params = colsSql <$> colsOf py params := by
  rw [selectCols,colsOf]
  cases (get params "select").filter truthy with
  | none => rfl
  | some sel =>
    dsimp only
    split
    · rfl
    · rw [map_mapM Name.text _ fun name _ => identText_eq py name]
      cases (strippedCols (py.str sel).toList).mapM (nameOf py) <;> rfl

end Filters

section Builders
variable (py : PyText)

/-- A request to the data layer, with the types of the columns as they were looked up. -/
inductive Request
  | select (table : String) (params : Dict)
  | upsert (table : String) (row : Dict) (pkCols : List String) (colTypes : List (String × ColType))
      (mergeJsonb : List String)
  | update (table : String) (params body : Dict) (colTypes : List (String × ColType))
  | delete (table : String) (params : Dict)

def typeNames (colTypes : List (String × ColType)) : List (String × String) :=
  colTypes.map fun entry => (entry.1,entry.2.name)

theorem lookup_typeNames (colTypes : List (String × ColType)) (c : String) :
    (typeNames colTypes).lookup c = (colTypes.lookup c).map ColType.name := by
  induction colTypes with
  | nil => rfl
  | cons entry colTypes ih =>
    obtain ⟨name,t⟩ := entry
    rw [typeNames] at ih ⊢
    cases found : c == name <;> simp [List.lookup_cons,found,ih]

def Request.text : Request → Except Exc (List Char)
  | .select table params => buildSelectText py table params
  | .upsert table row pkCols colTypes mergeJsonb => buildUpsertText py table row pkCols (typeNames colTypes) mergeJsonb
  | .update table params body colTypes => buildUpdateText py table params body (typeNames colTypes)
  | .delete table params => buildDeleteText py table params

def settingOf (table : String) (mergeJsonb : List String) (c : String) : Except Exc Setting := do
  let name ← nameOf py c.toList
  if c ∈ mergeJsonb then
    let owner ← nameOf py table.toList
    return ⟨name,some owner⟩
  return ⟨name,none⟩

def conflictOf (table : String) (cols pkCols mergeJsonb : List String) : Except Exc (Option Conflict) := do
  if pkCols.isEmpty then return none
  let keys ← pkCols.mapM fun c => nameOf py c.toList
  let sets ← (cols.filter fun c => c ∉ pkCols).mapM (settingOf py table mergeJsonb)
  return some ⟨keys,sets⟩

def setOf (colTypes : List (String × ColType)) (cell : String × Json) : Except Exc (Name × Cell) := do
  let name ← nameOf py cell.1.toList
  let value ← cellOf py cell.2 (colTypes.lookup cell.1)
  return (name,value)

def selectOf (table : String) (params : Dict) : Except Exc Statement := do
  let cols ← colsOf py params
  let name ← nameOf py table.toList
  let filters ← clausesOf py params
  let order ← orderOf py params
  let limit ← limitOf py params
  return .select cols name filters order limit

def upsertOf (table : String) (row : Dict) (pkCols : List String) (colTypes : List (String × ColType))
    (mergeJsonb : List String) : Except Exc Statement := do
  let cols ← row.mapM fun cell => nameOf py cell.1.toList
  let vals ← row.mapM fun cell => cellOf py cell.2 (colTypes.lookup cell.1)
  let name ← nameOf py table.toList
  let conflict ← conflictOf py table (row.map Prod.fst) pkCols mergeJsonb
  return .insert name cols vals conflict

def updateOf (table : String) (params body : Dict) (colTypes : List (String × ColType)) : Except Exc Statement := do
  let sets ← body.mapM (setOf py colTypes)
  let name ← nameOf py table.toList
  let filters ← clausesOf py params
  return .update name sets filters

def deleteOf (table : String) (params : Dict) : Except Exc Statement := do
  let name ← nameOf py table.toList
  let filters ← clausesOf py params
  return .delete name filters

def Request.statement : Request → Except Exc Statement
  | .select table params => selectOf py table params
  | .upsert table row pkCols colTypes mergeJsonb => upsertOf py table row pkCols colTypes mergeJsonb
  | .update table params body colTypes => updateOf py table params body colTypes
  | .delete table params => deleteOf py table params

theorem settingText_eq (table : String) (mergeJsonb : List String) (c : String) :
    assignmentText py table mergeJsonb c = Setting.sql <$> settingOf py table mergeJsonb c := by
  rw [assignmentText,settingOf,identText_eq,identText_eq]
  cases nameOf py c.toList with
  | error e => rfl
  | ok name =>
    by_cases merged : c ∈ mergeJsonb
    · cases owner : nameOf py table.toList with
      | error e => simp [merged,Functor.map,Except.map,bind,Except.bind]
      | ok owner => simp [merged,Functor.map,Except.map,bind,Except.bind,pure,Except.pure,Setting.sql]
    · simp [merged,Functor.map,Except.map,bind,Except.bind,pure,Except.pure,Setting.sql]

theorem doNothing_sql (keys : List Name) : " ON CONFLICT (".toList ++ joinWith ", " (keys.map Name.text) ++
    ") DO NOTHING".toList = conflictSql (some ⟨keys,[]⟩) := by
  rw [List.append_assoc]
  rfl

theorem doUpdate_sql (keys : List Name) (set : Setting) (sets : List Setting) :
    " ON CONFLICT (".toList ++ joinWith ", " (keys.map Name.text) ++ ") DO UPDATE SET ".toList ++
      joinWith ", " ((set :: sets).map Setting.sql) = conflictSql (some ⟨keys,set :: sets⟩) := by
  rw [List.append_assoc,List.append_assoc]
  rfl

theorem conflictText_eq (table : String) (cols pkCols mergeJsonb : List String) :
    conflictText py table cols pkCols mergeJsonb = conflictSql <$> conflictOf py table cols pkCols mergeJsonb := by
  rw [conflictText,conflictOf,map_mapM Name.text _ fun c _ => identText_eq py c.toList]
  dsimp only
  rw [map_mapM Setting.sql _ fun c _ => settingText_eq py table mergeJsonb c]
  generalize cols.filter (fun c => decide (c ∉ pkCols)) = updatable
  cases pkCols.isEmpty with
  | true => rfl
  | false =>
    cases pkCols.mapM fun c => nameOf py c.toList with
    | error e => rfl
    | ok keys =>
      cases updatable with
      | nil => exact congrArg Except.ok (doNothing_sql keys)
      | cons c updatable =>
        cases run : (c :: updatable).mapM (settingOf py table mergeJsonb) with
        | error e => rfl
        | ok sets =>
          cases mapM_reads run with
          | cons here behind => exact congrArg Except.ok (doUpdate_sql keys _ _)

theorem setText_eq (colTypes : List (String × ColType)) (cell : String × Json) :
    setText py (typeNames colTypes) cell = setSql <$> setOf py colTypes cell := by
  rw [setText,setOf,identText_eq,lookup_typeNames,litFor_eq]
  cases nameOf py cell.1.toList with
  | error e => rfl
  | ok name =>
    cases cellOf py cell.2 (colTypes.lookup cell.1) with
    | error e => rfl
    | ok value => exact congrArg Except.ok (List.append_assoc _ _ _)

theorem returning_eq : " RETURNING *".toList = returning := by
  have spelled : " RETURNING *".toList = " RETURNING ".toList ++ ['*'] := by simp
  exact spelled

theorem selectText_eq (table : String) (params : Dict) :
    buildSelectText py table params = Statement.sql <$> selectOf py table params := by
  have flat (cols name filters order limit : List Char) : "SELECT ".toList ++ cols ++ " FROM ".toList ++ name ++ filters ++
      order ++ limit = "SELECT ".toList ++ (cols ++ (" FROM ".toList ++ (name ++ (filters ++ (order ++ limit))))) := by
    simp only [List.append_assoc]
  rw [buildSelectText,selectOf,selectCols_eq,identText_eq,whereText_eq,orderText_eq,limitText_eq]
  cases colsOf py params with
  | error e => rfl
  | ok cols =>
    cases nameOf py table.toList with
    | error e => rfl
    | ok name =>
      cases clausesOf py params with
      | error e => rfl
      | ok filters =>
        cases orderOf py params with
        | error e => rfl
        | ok order =>
          cases limitOf py params with
          | error e => rfl
          | ok limit => exact congrArg Except.ok (flat _ _ _ _ _)

theorem upsertText_eq (table : String) (row : Dict) (pkCols : List String) (colTypes : List (String × ColType))
    (mergeJsonb : List String) : buildUpsertText py table row pkCols (typeNames colTypes) mergeJsonb =
      Statement.sql <$> upsertOf py table row pkCols colTypes mergeJsonb := by
  have flat (name cols vals conflict : List Char) : "INSERT INTO ".toList ++ name ++ " (".toList ++ cols ++
      ") VALUES (".toList ++ vals ++ ")".toList ++ conflict ++ " RETURNING *".toList = "INSERT INTO ".toList ++ (name ++
        (" (".toList ++ (cols ++ (") VALUES (".toList ++ (vals ++ (")".toList ++ (conflict ++ returning))))))) := by
    simp only [List.append_assoc,returning_eq]
  have cells (cell : String × Json) : litFor py cell.2 ((typeNames colTypes).lookup cell.1) =
      Cell.sql <$> cellOf py cell.2 (colTypes.lookup cell.1) := by
    rw [lookup_typeNames,litFor_eq]
  rw [buildUpsertText,upsertOf,map_mapM Name.text _ fun cell _ => identText_eq py cell.1.toList,
    map_mapM Cell.sql _ fun cell _ => cells cell,identText_eq,conflictText_eq]
  cases row.mapM fun cell => nameOf py cell.1.toList with
  | error e => rfl
  | ok cols =>
    cases row.mapM fun cell => cellOf py cell.2 (colTypes.lookup cell.1) with
    | error e => rfl
    | ok vals =>
      cases nameOf py table.toList with
      | error e => rfl
      | ok name =>
        cases conflictOf py table (row.map Prod.fst) pkCols mergeJsonb with
        | error e => rfl
        | ok conflict => exact congrArg Except.ok (flat _ _ _ _)

theorem updateText_eq (table : String) (params body : Dict) (colTypes : List (String × ColType)) :
    buildUpdateText py table params body (typeNames colTypes) =
      Statement.sql <$> updateOf py table params body colTypes := by
  have flat (name sets filters : List Char) : "UPDATE ".toList ++ name ++ " SET ".toList ++ sets ++ filters ++
      " RETURNING *".toList = "UPDATE ".toList ++ (name ++ (" SET ".toList ++ (sets ++ (filters ++ returning)))) := by
    simp only [List.append_assoc,returning_eq]
  rw [buildUpdateText,updateOf,map_mapM setSql _ fun cell _ => setText_eq py colTypes cell,identText_eq,whereText_eq]
  cases body.mapM (setOf py colTypes) with
  | error e => rfl
  | ok sets =>
    cases nameOf py table.toList with
    | error e => rfl
    | ok name =>
      cases clausesOf py params with
      | error e => rfl
      | ok filters => exact congrArg Except.ok (flat _ _ _)

theorem deleteText_eq (table : String) (params : Dict) :
    buildDeleteText py table params = Statement.sql <$> deleteOf py table params := by
  have flat (name filters : List Char) : "DELETE FROM ".toList ++ name ++ filters ++ " RETURNING *".toList =
      "DELETE FROM ".toList ++ (name ++ (filters ++ returning)) := by
    simp only [List.append_assoc,returning_eq]
  rw [buildDeleteText,deleteOf,identText_eq,whereText_eq]
  cases nameOf py table.toList with
  | error e => rfl
  | ok name =>
    cases clausesOf py params with
    | error e => rfl
    | ok filters => exact congrArg Except.ok (flat _ _)

theorem Request.text_eq (r : Request) : r.text py = Statement.sql <$> r.statement py := by
  cases r with
  | select table params => exact selectText_eq py table params
  | upsert table row pkCols colTypes mergeJsonb => exact upsertText_eq py table row pkCols colTypes mergeJsonb
  | update table params body colTypes => exact updateText_eq py table params body colTypes
  | delete table params => exact deleteText_eq py table params

end Builders

section Blanks
variable (f : Lit → Lit)

theorem Cell.map_pieces (c : Cell) : (c.map f).pieces = c.pieces.map (Piece.map f) := by
  cases c with
  | one l => rfl
  | array items t => simp [Cell.map,Cell.pieces,map_listed,Piece.map,commas,Function.comp_def]

theorem Pred.map_pieces (p : Pred) : (p.map f).pieces = p.pieces.map (Piece.map f) := by
  induction p with
  | compare c sign l => rfl
  | is c l => rfl
  | isIn c items => simp [Pred.map,Pred.pieces,map_listed,Piece.map,commas,Function.comp_def]
  | negated p ih => simp [Pred.map,Pred.pieces,ih,Piece.map]

theorem Clause.map_pieces (c : Clause) : (c.map f).pieces = c.pieces.map (Piece.map f) := by
  cases c with
  | one p => exact p.map_pieces f
  | group any ps => simp [Clause.map,Clause.pieces,map_listed,Piece.map,Function.comp_def,Pred.map_pieces]

theorem filters_map_pieces (clauses : List Clause) :
    filtersPieces (clauses.map (Clause.map f)) = (filtersPieces clauses).map (Piece.map f) := by
  cases clauses with
  | nil => rfl
  | cons c clauses => simp [filtersPieces,map_listed,Piece.map,Function.comp_def,Clause.map_pieces]

theorem names_map_pieces (names : List Name) :
    (listed commas (names.map fun n => [.name n])).map (Piece.map f) = listed commas (names.map fun n => [.name n]) := by
  simp [map_listed,Piece.map,commas,Function.comp_def]

theorem Setting.map_pieces (a : Setting) : a.pieces.map (Piece.map f) = a.pieces := by
  obtain ⟨column,merged⟩ := a
  cases merged <;> rfl

theorem do_map_pieces (sets : List Setting) : (doPieces sets).map (Piece.map f) = doPieces sets := by
  have kept : (listed commas (sets.map Setting.pieces)).map (Piece.map f) = listed commas (sets.map Setting.pieces) := by
    simp [map_listed,Function.comp_def,Setting.map_pieces,commas,Piece.map]
  rw [doPieces]
  split
  · rfl
  · rw [List.map_append,kept]
    rfl

theorem conflict_map_pieces (conflict : Option Conflict) :
    (conflictPieces conflict).map (Piece.map f) = conflictPieces conflict := by
  cases conflict with
  | none => rfl
  | some found => simp [conflictPieces,do_map_pieces,names_map_pieces,Piece.map]

theorem Statement.map_pieces (st : Statement) : (st.map f).pieces = st.pieces.map (Piece.map f) := by
  cases st with
  | select cols table filters order limit =>
    have named : (colsPieces cols).map (Piece.map f) = colsPieces cols := by
      cases cols with
      | none => rfl
      | some names => exact names_map_pieces f names
    have ordered : (orderPieces order).map (Piece.map f) = orderPieces order := by
      cases order with
      | none => rfl
      | some items => simp [orderPieces,map_listed,Piece.map,commas,Function.comp_def]
    have limited : limitPieces (limit.map f) = (limitPieces limit).map (Piece.map f) := by
      cases limit <;> rfl
    simp [Statement.map,Statement.pieces,named,ordered,limited,filters_map_pieces,Piece.map]
  | insert table cols vals conflict =>
    simp [Statement.map,Statement.pieces,conflict_map_pieces,map_listed,Function.comp_def,Cell.map_pieces,
      commas,Piece.map,returningPieces]
  | update table sets filters =>
    simp [Statement.map,Statement.pieces,filters_map_pieces,map_listed,Function.comp_def,Cell.map_pieces,setPieces,commas,
      Piece.map,returningPieces]
  | delete table filters => simp [Statement.map,Statement.pieces,filters_map_pieces,Piece.map,returningPieces]

end Blanks

/-- A text that is built has the tokens of what the request says: without the constants they
are those of the same statement with blank literals, and the string constants are its
values. -/
theorem built_tokens (py : PyText) (r : Request) {sql : List Char} (built : r.text py = .ok sql) :
    ∃ st tokens, r.statement py = .ok st ∧ Lexes sql tokens ∧
      tokens.map erase = (tokensOf (st.map Lit.blank).pieces).map erase ∧ constants tokens = valuesOf st.pieces := by
  rw [r.text_eq py] at built
  cases said : r.statement py with
  | error e =>
    rw [said] at built
    cases built
  | ok st =>
    rw [said] at built
    obtain rfl := Except.ok.inj built
    refine ⟨st,tokensOf st.pieces,rfl,st.reads.whole,?_,constants_tokensOf st.pieces⟩
    rw [st.map_pieces,← tokensOf_erased]

def isConstant : Token → Bool
  | .literal _ => true
  | .special _ _ => true
  | .number _ => true
  | _ => false

section Examples

def asciiText : PyText where
  unicode := Casing.Unicode.ascii
  alnum c := isLetter c || c.isDigit
  alnum_quote := by decide
  repr s := "'" ++ s ++ "'"
  str v := match v with
    | .str s => s
    | other => String.ofList (dumps (fun q => (toString q.floor).toList ++ ".0".toList) .plain other)
  int v := match v with
    | .int i => .ok i
    | _ => .error (.valueError "invalid literal for int()")
  floatRepr q := if q < 0 then '-' :: (Nat.toDigits 10 q.floor.natAbs ++ ".0".toList)
    else Nat.toDigits 10 q.floor.natAbs ++ ".0".toList
  floatRepr_numeral q := by
    refine ⟨Nat.toDigits 10 q.floor.natAbs ++ ".0".toList,⟨?_⟩,rfl⟩
    refine ⟨Nat.toDigits 10 q.floor.natAbs,".0".toList,[],by simp,Nat.toDigits_ne_nil,?_,
      .inr ⟨['0'],rfl,List.all_eq_true.mp (by decide)⟩,.inl rfl⟩
    exact fun c inside => Nat.isDigit_of_mem_toDigits (by decide) (by decide) inside
  floatText v := match v with
    | .int i => .ok (intText i ++ ".0".toList)
    | _ => .error (.valueError "could not convert to float")
  floatText_unquoted v text read := by
    cases v with
    | int i =>
      obtain rfl := Except.ok.inj read
      rw [intText_eq]
      have digits (n : ℕ) : '\'' ∉ Nat.toDigits 10 n := fun inside =>
        absurd (Nat.isDigit_of_mem_toDigits (by decide) (by decide) inside) (by decide)
      simp only [intLit,Lit.sql]
      split <;> simp [digits]
    | _ => cases read

theorem quoted_built : ∃ st tokens, (Request.delete "t" [("name",.str "eq.O'Brien'; --")]).statement asciiText = .ok st ∧
    Lexes "DELETE FROM \"t\" WHERE \"name\" = 'O''Brien''; --' RETURNING *".toList tokens ∧
      tokens.map erase = (tokensOf (st.map Lit.blank).pieces).map erase ∧ constants tokens = valuesOf st.pieces :=
  built_tokens asciiText _ rfl

def countName : Name := ⟨"n".toList,by decide,by decide⟩

def tableName : Name := ⟨"t".toList,by decide,by decide⟩

def counted (n : Int) : Statement := .insert tableName [countName] [.one (intLit n)] none

theorem counted_said (n : Int) : (Request.upsert "t" [("n",.int n)] [] [] []).statement asciiText = .ok (counted n) := by
  change upsertOf _ _ _ _ _ _ = _
  simp only [upsertOf,List.mapM_cons,List.mapM_nil]
  rfl

/-- Two rows with the same columns, one number each: the minus sign is a token of its own. -/
theorem sign_token : ∃ (r r' : Request) (sql sql' : List Char) (st st' : Statement) (tokens tokens' : List Token),
    r.text asciiText = .ok sql ∧ r'.text asciiText = .ok sql' ∧ r.statement asciiText = .ok st ∧
      r'.statement asciiText = .ok st' ∧ st.map (fun _ => .null) = st'.map (fun _ => .null) ∧ Lexes sql tokens ∧
      Lexes sql' tokens' ∧ (tokens.filter fun t => !isConstant t) ≠ tokens'.filter fun t => !isConstant t := by
  have written (n : Int) : (Request.upsert "t" [("n",.int n)] [] [] []).text asciiText = .ok (counted n).sql := by
    rw [Request.text_eq,counted_said]
    rfl
  refine ⟨.upsert "t" [("n",.int 5)] [] [] [],.upsert "t" [("n",.int (-5))] [] [] [],_,_,counted 5,counted (-5),_,_,
    written 5,written (-5),counted_said 5,counted_said (-5),rfl,
    (counted 5).reads.whole,(counted (-5)).reads.whole,?_⟩
  intro same
  have minus : Token.operator ['-'] ∈ (tokensOf (counted (-5)).pieces).filter fun t => !isConstant t := by decide +kernel
  rw [← same] at minus
  exact absurd minus (by decide +kernel)

end Examples

end Orrery.Chapter
