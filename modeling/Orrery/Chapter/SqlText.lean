import Orrery.Foundation.Casing
import Orrery.Foundation.SqlLexer

/-! The statements of the chapter's data layer as texts (server/pg_store.py): literals,
identifiers, filters and the four builders. -/
namespace Orrery.Chapter
open Foundation Json
open Foundation.Sql (double)

/-- What the builders use of Python: the tables of Unicode, `repr` of a text, `str` and
`int` of a value, `repr` of a float, and `repr(float(value))`. A quote is no letter or
digit, a float is written as a number, and never with a quote. -/
structure PyText where
  unicode : Casing.Unicode
  alnum : Char → Bool
  alnum_quote : alnum '"' = false
  repr : String → String
  str : Json → String
  int : Json → Except Exc Int
  floatRepr : ℚ → List Char
  floatRepr_numeral : ∀ q, ∃ text, Sql.Numeral text ∧ floatRepr q = if q < 0 then '-' :: text else text
  floatText : Json → Except Exc (List Char)
  floatText_unquoted : ∀ v text, floatText v = .ok text → '\'' ∉ text

section Literals
variable (py : PyText)

def quoteText (text : List Char) : List Char := '\'' :: (double '\'' text ++ ['\''])

def jsonText (v : Json) : List Char := dumps py.floatRepr .plain v

def intText (i : Int) : List Char := (toString i).toList

def litText : Json → List Char
  | .null => "NULL".toList
  | .bool b => if b then "TRUE".toList else "FALSE".toList
  | .int i => intText i
  | .float q => py.floatRepr q
  | .str s => quoteText s.toList
  | .arr items => quoteText (jsonText py (.arr items)) ++ "::jsonb".toList
  | .obj fields => quoteText (jsonText py (.obj fields)) ++ "::jsonb".toList

def baseType (coltype : String) : List Char :=
  ((coltype.toList.takeWhile (· ≠ '(')).reverse.takeWhile (· ≠ '.')).reverse

def joinWith (separator : String) (texts : List (List Char)) : List Char := separator.toList.intercalate texts

def litFor (v : Json) (coltype : Option String) : Except Exc (List Char) :=
  match v, coltype with
  | .null, _ => .ok "NULL".toList
  | v, none => .ok (litText py v)
  | v, some t =>
    if "[]".toList <:+ t.toList then
      let items := match v with
        | .arr items => items
        | other => [other]
      .ok ("ARRAY[".toList ++ joinWith ", " (items.map (litText py)) ++ "]::".toList ++ t.toList)
    else match v with
      | .arr items => do
        if baseType t = "vector".toList then
          let inner ← items.mapM py.floatText
          return "'[".toList ++ joinWith "," inner ++ "]'::".toList ++ t.toList
        if t = "jsonb" ∨ t = "json" then return quoteText (jsonText py v) ++ "::".toList ++ t.toList
        return litText py v
      | .obj _ =>
        if t = "jsonb" ∨ t = "json" then .ok (quoteText (jsonText py v) ++ "::".toList ++ t.toList)
        else .ok (litText py v)
      | other => .ok (litText py other)

def plainName (name : List Char) : Bool :=
  let rest := name.filter (· ≠ '_')
  !rest.isEmpty && rest.all py.alnum

def identText (name : List Char) : Except Exc (List Char) :=
  if plainName py name then .ok ('"' :: (name ++ ['"']))
  else .error (.valueError s!"unsafe SQL identifier: {py.repr (String.ofList name)}")

end Literals

section Filters
variable (py : PyText)

def partition (separator : Char) (text : List Char) : List Char × List Char :=
  (text.takeWhile (· ≠ separator),(text.dropWhile (· ≠ separator)).drop 1)

def operators : List (String × String) :=
  [("eq","="),("neq","<>"),("gt",">"),("gte",">="),("lt","<"),("lte","<=")]

def unwrapped (text : List Char) : List Char :=
  if text.head? = some '(' ∧ text.getLast? = some ')' then (text.drop 1).dropLast else text

def unsupported (op raw : List Char) : Exc :=
  .valueError s!"unsupported PostgREST operator {py.repr (String.ofList op)} in {py.repr (String.ofList raw)}"

def filterFrom (col : List Char) : ℕ → List Char → Except Exc (List Char)
  | 0, raw => .error (unsupported py [] raw)
  | fuel+1, raw => do
    let c ← identText py col
    let (op,val) := partition '.' raw
    if op = "not".toList then
      return "NOT (".toList ++ (← filterFrom col fuel val) ++ ")".toList
    if op = "is".toList then
      let low := py.unicode.lowercase val
      if low = "null".toList then return c ++ " IS NULL".toList
      if low = "true".toList then return c ++ " IS TRUE".toList
      if low = "false".toList then return c ++ " IS FALSE".toList
      return c ++ " IS ".toList ++ quoteText val
    if op = "in".toList then
      let items := ((unwrapped val).splitOn ',').filter (· ≠ [])
      let rendered := if items.isEmpty then "NULL".toList else joinWith ", " (items.map quoteText)
      return c ++ " IN (".toList ++ rendered ++ ")".toList
    match operators.lookup (String.ofList op) with
    | some sign => return c ++ " ".toList ++ sign.toList ++ " ".toList ++ quoteText val
    | none => .error (unsupported py op raw)

def filterText (col raw : List Char) : Except Exc (List Char) := filterFrom py col (raw.length+1) raw

def splitTop : Int → List Char → List Char → List (List Char)
  | _, piece, [] => [piece]
  | depth, piece, c :: rest =>
    if c = '(' then splitTop (depth+1) (piece ++ [c]) rest
    else if c = ')' then splitTop (depth-1) (piece ++ [c]) rest
    else if c = ',' ∧ depth = 0 then piece :: splitTop depth [] rest
    else splitTop depth (piece ++ [c]) rest

def splitTopCommas (s : List Char) : List (List Char) := (splitTop 0 [] s).filter (· ≠ [])

def compoundText (kind : String) (raw : List Char) : Except Exc (List Char) := do
  let preds ← (splitTopCommas (unwrapped raw)).mapM fun part =>
    filterText py (partition '.' part).1 (partition '.' part).2
  return "(".toList ++ joinWith (if kind = "or" then " OR " else " AND ") preds ++ ")".toList

def reserved : List String := ["select","order","limit","offset"]

def clauseText (param : String × Json) : Except Exc (List Char) :=
  if param.1 = "and" ∨ param.1 = "or" then compoundText py param.1 (py.str param.2).toList
  else filterText py param.1.toList (py.str param.2).toList

def whereText (params : Dict) : Except Exc (List Char) := do
  let preds ← (params.filter fun param => param.1 ∉ reserved).mapM (clauseText py)
  return if preds.isEmpty then [] else " WHERE ".toList ++ joinWith " AND " preds

def orderPart (part : List Char) : Except Exc (List Char) := do
  let (name,direction) := partition '.' part
  let d := if "desc".toList <+: py.unicode.lowercase direction then " DESC".toList else " ASC".toList
  return (← identText py name) ++ d

def orderText (params : Dict) : Except Exc (List Char) :=
  match (get params "order").filter truthy with
  | none => .ok []
  | some spec => do
    let cols ← ((py.str spec).toList.splitOn ',').mapM (orderPart py)
    return " ORDER BY ".toList ++ joinWith ", " cols

def limitText (params : Dict) : Except Exc (List Char) :=
  match get params "limit" with
  | none | some .null => .ok []
  | some lim => do
    let count ← py.int lim
    return " LIMIT ".toList ++ intText count

def strippedCols (sel : List Char) : List (List Char) := ((sel.splitOn ',').map JsonLines.strip).filter (· ≠ [])

def selectCols (params : Dict) : Except Exc (List Char) :=
  match (get params "select").filter truthy with
  | none => .ok "*".toList
  | some sel =>
    if eqStr (some sel) "*" then .ok "*".toList
    else do
      let cols ← (strippedCols (py.str sel).toList).mapM (identText py)
      return joinWith ", " cols

end Filters

section Builders
variable (py : PyText)

def buildSelectText (table : String) (params : Dict) : Except Exc (List Char) := do
  let cols ← selectCols py params
  let name ← identText py table.toList
  let where_ ← whereText py params
  let order ← orderText py params
  let limit ← limitText py params
  return "SELECT ".toList ++ cols ++ " FROM ".toList ++ name ++ where_ ++ order ++ limit

def assignmentText (table : String) (mergeJsonb : List String) (c : String) : Except Exc (List Char) := do
  let name ← identText py c.toList
  if c ∈ mergeJsonb then
    return name ++ " = ".toList ++ (← identText py table.toList) ++ ".".toList ++ name ++ " || EXCLUDED.".toList ++ name
  return name ++ " = EXCLUDED.".toList ++ name

def conflictText (table : String) (cols pkCols mergeJsonb : List String) : Except Exc (List Char) := do
  if pkCols.isEmpty then return []
  let conflict ← pkCols.mapM fun c => identText py c.toList
  let updatable := cols.filter fun c => c ∉ pkCols
  if updatable.isEmpty then return " ON CONFLICT (".toList ++ joinWith ", " conflict ++ ") DO NOTHING".toList
  let setlist ← updatable.mapM (assignmentText py table mergeJsonb)
  return " ON CONFLICT (".toList ++ joinWith ", " conflict ++ ") DO UPDATE SET ".toList ++ joinWith ", " setlist

def buildUpsertText (table : String) (row : Dict) (pkCols : List String) (colTypes : List (String × String))
    (mergeJsonb : List String) : Except Exc (List Char) := do
  let collist ← row.mapM fun cell => identText py cell.1.toList
  let vals ← row.mapM fun cell => litFor py cell.2 (colTypes.lookup cell.1)
  let name ← identText py table.toList
  let conflict ← conflictText py table (row.map Prod.fst) pkCols mergeJsonb
  return "INSERT INTO ".toList ++ name ++ " (".toList ++ joinWith ", " collist ++ ") VALUES (".toList ++
    joinWith ", " vals ++ ")".toList ++ conflict ++ " RETURNING *".toList

def setText (colTypes : List (String × String)) (cell : String × Json) : Except Exc (List Char) := do
  let name ← identText py cell.1.toList
  let value ← litFor py cell.2 (colTypes.lookup cell.1)
  return name ++ " = ".toList ++ value

def buildUpdateText (table : String) (params body : Dict) (colTypes : List (String × String)) :
    Except Exc (List Char) := do
  let setlist ← body.mapM (setText py colTypes)
  let name ← identText py table.toList
  let where_ ← whereText py params
  return "UPDATE ".toList ++ name ++ " SET ".toList ++ joinWith ", " setlist ++ where_ ++ " RETURNING *".toList

def buildDeleteText (table : String) (params : Dict) : Except Exc (List Char) := do
  let name ← identText py table.toList
  let where_ ← whereText py params
  return "DELETE FROM ".toList ++ name ++ where_ ++ " RETURNING *".toList

end Builders

end Orrery.Chapter
