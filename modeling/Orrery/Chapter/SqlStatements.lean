import Orrery.Chapter.SqlTokens

/-! The statements of the data layer as data: names, signs, filters and cells with their
literals. Each is written as one text, which is read back as its pieces. -/
namespace Orrery.Chapter
open Foundation Json
open Foundation.Sql

inductive Piece
  | keyword (word : String)
  | name (n : Name)
  | operator (text : List Char)
  | symbol (text : List Char)
  | coltype (t : ColType)
  | lit (l : Lit)

def Piece.tokens : Piece → List Token
  | .keyword word => [Chapter.keyword word]
  | .name n => [n.token]
  | .operator text => [.operator text]
  | .symbol text => [.symbol text]
  | .coltype t => t.tokens
  | .lit l => l.tokens

def Piece.map (f : Lit → Lit) : Piece → Piece
  | .lit l => .lit (f l)
  | other => other

def Piece.lit? : Piece → Option Lit
  | .lit l => some l
  | _ => none

def tokensOf (pieces : List Piece) : List Token := pieces.flatMap Piece.tokens

def valuesOf (pieces : List Piece) : List (List Char) := (pieces.filterMap Piece.lit?).filterMap Lit.value?

section Pieces
variable {text front back between : List Char} {one two middle pieces : List Piece}

@[simp] theorem tokensOf_append (one two : List Piece) : tokensOf (one ++ two) = tokensOf one ++ tokensOf two :=
  List.flatMap_append

theorem tokensOf_erased (pieces : List Piece) :
    (tokensOf pieces).map erase = (tokensOf (pieces.map (Piece.map Lit.blank))).map erase := by
  induction pieces with
  | nil => rfl
  | cons piece pieces ih =>
    have here : piece.tokens.map erase = (piece.map Lit.blank).tokens.map erase := by
      cases piece with
      | lit l => exact l.erased
      | _ => rfl
    simp only [tokensOf,List.map_cons,List.flatMap_cons,List.map_append] at ih ⊢
    rw [here,ih]

theorem constants_tokensOf (pieces : List Piece) : constants (tokensOf pieces) = valuesOf pieces := by
  induction pieces with
  | nil => rfl
  | cons piece pieces ih =>
    rw [tokensOf,List.flatMap_cons,constants_append,← tokensOf,ih]
    cases piece with
    | coltype t =>
      rw [Piece.tokens,t.valueless]
      rfl
    | lit l =>
      have values := l.values
      cases found : l.value? <;> simp [Piece.tokens,values,valuesOf,Piece.lit?,found]
    | _ => rfl

def Reads (text : List Char) (pieces : List Piece) : Prop := Spells text (tokensOf pieces)

def Phrase (text : List Char) (pieces : List Piece) : Prop :=
  ∀ rest more, Lexes rest more → Lexes (text ++ rest) (tokensOf pieces ++ more)

theorem Reads.whole (inner : Reads text pieces) : Lexes text (tokensOf pieces) := by
  have read := inner [] [] (.inl rfl) .nil
  simpa using read

theorem Reads.nil : Reads [] [] := Spells.nil

theorem Phrase.reads (phrase : Phrase front one) (inner : Reads back two) : Reads (front ++ back) (one ++ two) := by
  intro rest more stops behind
  rw [List.append_assoc,tokensOf_append,List.append_assoc]
  exact phrase _ _ (inner _ _ stops behind)

theorem Reads.joined (first : Reads front one) (phrase : Phrase between middle) (stop : ∀ rest, Stops (between ++ rest))
    (second : Reads back two) : Reads (front ++ (between ++ back)) (one ++ (middle ++ two)) := by
  intro rest more stops behind
  have read := phrase.reads second rest more stops behind
  rw [List.append_assoc] at read
  rw [List.append_assoc,List.append_assoc,tokensOf_append,List.append_assoc]
  exact first _ _ (stop _) read

def Part (text : List Char) : Prop := ∀ rest, Stops rest → Stops (text ++ rest)

theorem Part.nil : Part [] := fun _ stops => stops

theorem Part.append (first : Part front) (second : Part back) : Part (front ++ back) := by
  intro rest stops
  rw [List.append_assoc]
  exact first _ (second _ stops)

theorem part_word {c : Char} (letter : isLetter c = true) (text : List Char) : Part (' ' :: c :: text) :=
  fun _ _ => stops_word letter _

theorem Reads.append (first : Reads front one) (part : Part back) (second : Reads back two) :
    Reads (front ++ back) (one ++ two) := by
  intro rest more stops behind
  have read := second _ _ stops behind
  rw [List.append_assoc,tokensOf_append,List.append_assoc]
  exact first _ _ (part _ stops) read

theorem reads_listed {separator : String} (separates : Separates separator.toList (tokensOf middle)) {α : Type}
    (text : α → List Char) (pieces : α → List Piece) (items : List α) (each : ∀ item ∈ items, Reads (text item) (pieces item)) :
    Reads (joinWith separator (items.map text)) (listed middle (items.map pieces)) := by
  have spelled := spells_joinWith separates text (tokensOf ∘ pieces) items each
  rw [Reads,tokensOf,flatMap_listed,List.map_map]
  exact spelled

theorem reads_name (n : Name) : Reads n.text [.name n] := spells_name n

theorem reads_lit (l : Lit) : Reads l.sql [.lit l] := by
  have spelled := spells_lit l
  simpa [Reads,tokensOf,Piece.tokens] using spelled

theorem reads_coltype (t : ColType) : Reads t.text [.coltype t] := by
  have spelled := spells_colType t
  simpa [Reads,tokensOf,Piece.tokens] using spelled

theorem reads_named (n : Name) (phrase : Phrase between middle) (plain : ∀ rest, (between ++ rest).head? ≠ some '"')
    (inner : Reads back two) : Reads (n.text ++ (between ++ back)) (.name n :: (middle ++ two)) := by
  intro rest more stops behind
  have read := phrase.reads inner rest more stops behind
  rw [List.append_assoc]
  refine lexes_name n ?_ read
  rw [List.append_assoc]
  exact plain _

def Leads (text : List Char) (pieces : List Piece) : Prop :=
  ∀ (n : Name) (rest : List Char) (more : List Token), Lexes (n.text ++ rest) more →
    Lexes (text ++ (n.text ++ rest)) (tokensOf pieces ++ more)

theorem Leads.reads {n : Name} (phrase : Leads front one) (inner : Reads (n.text ++ back) two) :
    Reads (front ++ (n.text ++ back)) (one ++ two) := by
  intro rest more stops behind
  have read := inner rest more stops behind
  rw [List.append_assoc] at read
  rw [List.append_assoc,List.append_assoc,tokensOf_append,List.append_assoc]
  exact phrase n _ _ read

end Pieces

def commas : List Piece := [.symbol [',']]

theorem reads_commas {α : Type} (text : α → List Char) (pieces : α → List Piece) (items : List α)
    (each : ∀ item ∈ items, Reads (text item) (pieces item)) :
    Reads (joinWith ", " (items.map text)) (listed commas (items.map pieces)) :=
  reads_listed separates_comma text pieces items each

theorem reads_names (names : List Name) :
    Reads (joinWith ", " (names.map Name.text)) (listed commas (names.map fun n => [.name n])) :=
  reads_commas _ _ _ fun n _ => reads_name n

theorem Reads.closed {text : List Char} {pieces : List Piece} (inner : Reads text pieces) :
    Reads (text ++ [')']) (pieces ++ [.symbol [')']]) :=
  inner.append (fun _ _ => stops_closing _) fun _ _ _ behind => behind.symbol (by decide)

section Cells

inductive Cell
  | one (l : Lit)
  | array (items : List Lit) (coltype : ColType)

def Cell.sql : Cell → List Char
  | .one l => l.sql
  | .array items t => "ARRAY[".toList ++ (joinWith ", " (items.map Lit.sql) ++ ("]::".toList ++ t.text))

def Cell.pieces : Cell → List Piece
  | .one l => [.lit l]
  | .array items t => [.keyword "ARRAY",.symbol ['[']] ++ (listed commas (items.map fun l => [.lit l]) ++
    ([.symbol [']'],.symbol [':',':']] ++ [.coltype t]))

def Cell.map (f : Lit → Lit) : Cell → Cell
  | .one l => .one (f l)
  | .array items t => .array (items.map f) t

theorem phrase_array : Phrase "ARRAY[".toList [.keyword "ARRAY",.symbol ['[']] :=
  fun _ _ behind => behind.front 2 fun _ _ => rfl

theorem phrase_cast : Phrase "]::".toList [.symbol [']'],.symbol [':',':']] :=
  fun _ _ behind => behind.front 2 fun _ _ => rfl

theorem Cell.reads (c : Cell) : Reads c.sql c.pieces := by
  cases c with
  | one l => exact reads_lit l
  | array items t =>
    have inner := reads_commas Lit.sql (fun l => [.lit l]) items fun l _ => reads_lit l
    exact phrase_array.reads (inner.joined phrase_cast (fun _ => stops_bracket _) (reads_coltype t))

end Cells

section Filters

inductive Sign
  | eq | neq | gt | gte | lt | lte

def Sign.text : Sign → List Char
  | .eq => ['=']
  | .neq => ['<','>']
  | .gt => ['>']
  | .gte => ['>','=']
  | .lt => ['<']
  | .lte => ['<','=']

inductive Pred
  | compare (c : Name) (sign : Sign) (l : Lit)
  | is (c : Name) (l : Lit)
  | isIn (c : Name) (items : List Lit)
  | negated (p : Pred)

def Pred.sql : Pred → List Char
  | .compare c sign l => c.text ++ ((' ' :: (sign.text ++ [' '])) ++ l.sql)
  | .is c l => c.text ++ (" IS ".toList ++ l.sql)
  | .isIn c items => c.text ++ (" IN (".toList ++ (joinWith ", " (items.map Lit.sql) ++ [')']))
  | .negated p => "NOT (".toList ++ (p.sql ++ [')'])

def Pred.pieces : Pred → List Piece
  | .compare c sign l => .name c :: ([.operator sign.text] ++ [.lit l])
  | .is c l => .name c :: ([.keyword "IS"] ++ [.lit l])
  | .isIn c items => .name c :: ([.keyword "IN",.symbol ['(']] ++ (listed commas (items.map fun l => [.lit l]) ++
    [.symbol [')']]))
  | .negated p => [.keyword "NOT",.symbol ['(']] ++ (p.pieces ++ [.symbol [')']])

def Pred.map (f : Lit → Lit) : Pred → Pred
  | .compare c sign l => .compare c sign (f l)
  | .is c l => .is c (f l)
  | .isIn c items => .isIn c (items.map f)
  | .negated p => .negated (p.map f)

theorem phrase_sign (sign : Sign) : Phrase (' ' :: (sign.text ++ [' '])) [.operator sign.text] := by
  intro rest more behind
  cases sign <;> exact behind.front 3 fun _ _ => rfl

theorem phrase_is : Phrase " IS ".toList [.keyword "IS"] := fun _ _ behind => behind.front 3 fun _ _ => rfl

theorem phrase_in : Phrase " IN (".toList [.keyword "IN",.symbol ['(']] :=
  fun _ _ behind => behind.front 4 fun _ _ => rfl

theorem phrase_not : Phrase "NOT (".toList [.keyword "NOT",.symbol ['(']] :=
  fun _ _ behind => behind.front 3 fun _ _ => rfl

theorem Pred.reads (p : Pred) : Reads p.sql p.pieces := by
  induction p with
  | compare c sign l => exact reads_named c (phrase_sign sign) (fun _ => by simp) (reads_lit l)
  | is c l => exact reads_named c phrase_is (fun _ => by simp) (reads_lit l)
  | isIn c items =>
    have inner := reads_commas Lit.sql (fun l => [.lit l]) items fun l _ => reads_lit l
    exact reads_named c phrase_in (fun _ => by simp) inner.closed
  | negated p ih => exact phrase_not.reads ih.closed

inductive Clause
  | one (p : Pred)
  | group (any : Bool) (ps : List Pred)

def junction (any : Bool) : String := if any then "OR" else "AND"

def Clause.sql : Clause → List Char
  | .one p => p.sql
  | .group any ps => "(".toList ++ (joinWith (if any then " OR " else " AND ") (ps.map Pred.sql) ++ [')'])

def Clause.pieces : Clause → List Piece
  | .one p => p.pieces
  | .group any ps => [.symbol ['(']] ++ (listed [.keyword (junction any)] (ps.map Pred.pieces) ++ [.symbol [')']])

def Clause.map (f : Lit → Lit) : Clause → Clause
  | .one p => .one (p.map f)
  | .group any ps => .group any (ps.map (Pred.map f))

theorem phrase_opening : Phrase "(".toList [.symbol ['(']] := fun _ _ behind => behind.front 1 fun _ _ => rfl

theorem Clause.reads (c : Clause) : Reads c.sql c.pieces := by
  cases c with
  | one p => exact p.reads
  | group any ps =>
    cases any with
    | true => exact phrase_opening.reads (reads_listed separates_or _ _ ps fun p _ => p.reads).closed
    | false => exact phrase_opening.reads (reads_listed separates_and _ _ ps fun p _ => p.reads).closed

def filtersSql (clauses : List Clause) : List Char :=
  if clauses.isEmpty then [] else " WHERE ".toList ++ joinWith " AND " (clauses.map Clause.sql)

def filtersPieces (clauses : List Clause) : List Piece :=
  if clauses.isEmpty then [] else [.keyword "WHERE"] ++ listed [.keyword "AND"] (clauses.map Clause.pieces)

theorem phrase_where : Phrase " WHERE ".toList [.keyword "WHERE"] := fun _ _ behind => behind.front 3 fun _ _ => rfl

theorem filters_read (clauses : List Clause) : Reads (filtersSql clauses) (filtersPieces clauses) := by
  rw [filtersSql,filtersPieces]
  split
  · exact .nil
  · exact phrase_where.reads (reads_listed separates_and _ _ clauses fun c _ => c.reads)

theorem filters_part (clauses : List Clause) : Part (filtersSql clauses) := by
  rw [filtersSql]
  split
  · exact .nil
  · exact part_word (by decide) _

end Filters

section Statements

structure Setting where
  column : Name
  merged : Option Name

structure Conflict where
  keys : List Name
  sets : List Setting

inductive Statement
  | select (cols : Option (List Name)) (table : Name) (filters : List Clause) (order : Option (List (Name × Bool)))
      (limit : Option Lit)
  | insert (table : Name) (cols : List Name) (vals : List Cell) (conflict : Option Conflict)
  | update (table : Name) (sets : List (Name × Cell)) (filters : List Clause)
  | delete (table : Name) (filters : List Clause)

def Setting.sql (a : Setting) : List Char :=
  match a.merged with
  | some table => a.column.text ++ (" = ".toList ++ (table.text ++ (".".toList ++ (a.column.text ++
      (" || EXCLUDED.".toList ++ (a.column.text ++ []))))))
  | none => a.column.text ++ (" = EXCLUDED.".toList ++ (a.column.text ++ []))

def Setting.pieces (a : Setting) : List Piece :=
  match a.merged with
  | some table => .name a.column :: ([.operator ['=']] ++ (.name table :: ([.symbol ['.']] ++ (.name a.column ::
      ([.operator ['|','|'],.keyword "EXCLUDED",.symbol ['.']] ++ [.name a.column])))))
  | none => .name a.column :: ([.operator ['='],.keyword "EXCLUDED",.symbol ['.']] ++ [.name a.column])

def doSql (sets : List Setting) : List Char :=
  if sets.isEmpty then ") DO ".toList ++ "NOTHING".toList
  else ") DO UPDATE SET ".toList ++ joinWith ", " (sets.map Setting.sql)

def doPieces (sets : List Setting) : List Piece :=
  if sets.isEmpty then [.symbol [')'],.keyword "DO"] ++ [.keyword "NOTHING"]
  else [.symbol [')'],.keyword "DO",.keyword "UPDATE",.keyword "SET"] ++ listed commas (sets.map Setting.pieces)

def conflictSql : Option Conflict → List Char
  | none => []
  | some found => " ON CONFLICT (".toList ++ (joinWith ", " (found.keys.map Name.text) ++ doSql found.sets)

def conflictPieces : Option Conflict → List Piece
  | none => []
  | some found => [.keyword "ON",.keyword "CONFLICT",.symbol ['(']] ++ (listed commas (found.keys.map fun n => [.name n]) ++
      doPieces found.sets)

def orderSql : Option (List (Name × Bool)) → List Char
  | none => []
  | some items => " ORDER BY ".toList ++ joinWith ", " (items.map fun item =>
      item.1.text ++ (" ".toList ++ (if item.2 then "DESC" else "ASC").toList))

def orderPieces : Option (List (Name × Bool)) → List Piece
  | none => []
  | some items => [.keyword "ORDER",.keyword "BY"] ++ listed commas (items.map fun item =>
      .name item.1 :: ([] ++ [.keyword (if item.2 then "DESC" else "ASC")]))

def limitSql : Option Lit → List Char
  | none => []
  | some l => " LIMIT ".toList ++ l.sql

def limitPieces : Option Lit → List Piece
  | none => []
  | some l => [.keyword "LIMIT"] ++ [.lit l]

def colsSql : Option (List Name) → List Char
  | none => ['*']
  | some names => joinWith ", " (names.map Name.text)

def colsPieces : Option (List Name) → List Piece
  | none => [.operator ['*']]
  | some names => listed commas (names.map fun n => [.name n])

def returning : List Char := " RETURNING ".toList ++ ['*']

def returningPieces : List Piece := [.keyword "RETURNING"] ++ [.operator ['*']]

def setSql (set : Name × Cell) : List Char := set.1.text ++ (" = ".toList ++ set.2.sql)

def setPieces (set : Name × Cell) : List Piece := .name set.1 :: ([.operator ['=']] ++ set.2.pieces)

def Statement.sql : Statement → List Char
  | .select cols table filters order limit => "SELECT ".toList ++ (colsSql cols ++ (" FROM ".toList ++ (table.text ++
      (filtersSql filters ++ (orderSql order ++ limitSql limit)))))
  | .insert table cols vals conflict => "INSERT INTO ".toList ++ (table.text ++ (" (".toList ++
      (joinWith ", " (cols.map Name.text) ++ (") VALUES (".toList ++ (joinWith ", " (vals.map Cell.sql) ++
        (")".toList ++ (conflictSql conflict ++ returning)))))))
  | .update table sets filters => "UPDATE ".toList ++ (table.text ++ (" SET ".toList ++
      (joinWith ", " (sets.map setSql) ++ (filtersSql filters ++ returning))))
  | .delete table filters => "DELETE FROM ".toList ++ (table.text ++ (filtersSql filters ++ returning))

def Statement.pieces : Statement → List Piece
  | .select cols table filters order limit => [.keyword "SELECT"] ++ (colsPieces cols ++ ([.keyword "FROM"] ++
      ([.name table] ++ (filtersPieces filters ++ (orderPieces order ++ limitPieces limit)))))
  | .insert table cols vals conflict => [.keyword "INSERT",.keyword "INTO"] ++ (.name table :: ([.symbol ['(']] ++
      (listed commas (cols.map fun n => [.name n]) ++ ([.symbol [')'],.keyword "VALUES",.symbol ['(']] ++
        (listed commas (vals.map Cell.pieces) ++ ([.symbol [')']] ++ (conflictPieces conflict ++ returningPieces)))))))
  | .update table sets filters => [.keyword "UPDATE"] ++ (.name table :: ([.keyword "SET"] ++
      (listed commas (sets.map setPieces) ++ (filtersPieces filters ++ returningPieces))))
  | .delete table filters => [.keyword "DELETE",.keyword "FROM"] ++ ([.name table] ++
      (filtersPieces filters ++ returningPieces))

def Statement.map (f : Lit → Lit) : Statement → Statement
  | .select cols table filters order limit => .select cols table (filters.map (Clause.map f)) order (limit.map f)
  | .insert table cols vals conflict => .insert table cols (vals.map (Cell.map f)) conflict
  | .update table sets filters => .update table (sets.map fun set => (set.1,set.2.map f)) (filters.map (Clause.map f))
  | .delete table filters => .delete table (filters.map (Clause.map f))

end Statements

section Reading

theorem phrase_equals : Phrase " = ".toList [.operator ['=']] := fun _ _ behind => behind.front 3 fun _ _ => rfl

theorem leads_dot : Leads ".".toList [.symbol ['.']] := fun _ _ _ behind => behind.front 1 fun _ _ => rfl

theorem leads_merged : Leads " || EXCLUDED.".toList [.operator ['|','|'],.keyword "EXCLUDED",.symbol ['.']] :=
  fun _ _ _ behind => behind.front 5 fun _ _ => rfl

theorem leads_excluded : Leads " = EXCLUDED.".toList [.operator ['='],.keyword "EXCLUDED",.symbol ['.']] :=
  fun _ _ _ behind => behind.front 5 fun _ _ => rfl

theorem reads_leading (n : Name) {m : Name} {text back : List Char} {middle two : List Piece} (phrase : Leads text middle)
    (plain : ∀ rest, (text ++ rest).head? ≠ some '"') (inner : Reads (m.text ++ back) two) :
    Reads (n.text ++ (text ++ (m.text ++ back))) (.name n :: (middle ++ two)) := by
  intro rest more stops behind
  have read := phrase.reads inner rest more stops behind
  rw [List.append_assoc]
  refine lexes_name n ?_ read
  rw [List.append_assoc]
  exact plain _

theorem Setting.reads (a : Setting) : Reads a.sql a.pieces := by
  have column : Reads (a.column.text ++ []) [.name a.column] := (reads_name a.column).append .nil .nil
  rw [Setting.sql,Setting.pieces]
  cases a.merged with
  | some table =>
    have merged := reads_leading a.column leads_merged (fun _ => by simp) column
    have dotted := reads_leading table leads_dot (fun _ => by simp) merged
    exact reads_named a.column phrase_equals (fun _ => by simp) dotted
  | none => exact reads_leading a.column leads_excluded (fun _ => by simp) column

theorem phrase_conflict : Phrase " ON CONFLICT (".toList [.keyword "ON",.keyword "CONFLICT",.symbol ['(']] :=
  fun _ _ behind => behind.front 6 fun _ _ => rfl

theorem phrase_do : Phrase ") DO ".toList [.symbol [')'],.keyword "DO"] := fun _ _ behind => behind.front 4 fun _ _ => rfl

theorem phrase_set : Phrase ") DO UPDATE SET ".toList [.symbol [')'],.keyword "DO",.keyword "UPDATE",.keyword "SET"] :=
  fun _ _ behind => behind.front 8 fun _ _ => rfl

theorem reads_keyword {word : String} (spelled : Spells word.toList [Chapter.keyword word]) :
    Reads word.toList [.keyword word] := spelled

theorem do_part (sets : List Setting) : Part (doSql sets) := by
  rw [doSql]
  split
  · exact fun _ _ => stops_closing _
  · exact fun _ _ => stops_closing _

theorem conflict_reads (conflict : Option Conflict) : Reads (conflictSql conflict) (conflictPieces conflict) := by
  cases conflict with
  | none => exact .nil
  | some found =>
    refine phrase_conflict.reads ((reads_names found.keys).append (do_part found.sets) ?_)
    rw [doSql,doPieces]
    split
    · exact phrase_do.reads (reads_keyword (spells_keyword ⟨'N',"OTHING".toList,rfl,rfl,by decide⟩))
    · exact phrase_set.reads (reads_commas Setting.sql Setting.pieces found.sets fun a _ => a.reads)

theorem phrase_order : Phrase " ORDER BY ".toList [.keyword "ORDER",.keyword "BY"] :=
  fun _ _ behind => behind.front 5 fun _ _ => rfl

theorem phrase_space : Phrase " ".toList [] := fun _ _ behind => behind.front 1 fun _ _ => rfl

theorem order_reads (order : Option (List (Name × Bool))) : Reads (orderSql order) (orderPieces order) := by
  cases order with
  | none => exact .nil
  | some items =>
    refine phrase_order.reads (reads_commas _ _ items fun item _ => ?_)
    refine reads_named item.1 phrase_space (fun _ => by simp) ?_
    cases item.2 with
    | true => exact reads_keyword (spells_keyword ⟨'D',"ESC".toList,rfl,rfl,by decide⟩)
    | false => exact reads_keyword (spells_keyword ⟨'A',"SC".toList,rfl,rfl,by decide⟩)

theorem order_part (order : Option (List (Name × Bool))) : Part (orderSql order) := by
  cases order with
  | none => exact .nil
  | some items => exact part_word (by decide) _

theorem phrase_limit : Phrase " LIMIT ".toList [.keyword "LIMIT"] := fun _ _ behind => behind.front 3 fun _ _ => rfl

theorem limit_reads (limit : Option Lit) : Reads (limitSql limit) (limitPieces limit) := by
  cases limit with
  | none => exact .nil
  | some l => exact phrase_limit.reads (reads_lit l)

theorem limit_part (limit : Option Lit) : Part (limitSql limit) := by
  cases limit with
  | none => exact .nil
  | some l => exact part_word (by decide) _

theorem reads_star : Reads ['*'] [.operator ['*']] := by
  intro rest more stops behind
  have run : rest.takeWhile isOpChar = [] := by
    cases rest with
    | nil => rfl
    | cons c rest =>
      have outside : isOpChar c = false := stops.fails (by decide) c rfl
      simp [outside]
  have star : Sql.token '*' rest = some (.operator (operatorOf ('*' :: rest.takeWhile isOpChar)),
      rest.drop ((operatorOf ('*' :: rest.takeWhile isOpChar)).length-1)) := rfl
  rw [run] at star
  exact Lexes.token rfl (by simp) (by decide) star behind

theorem cols_read (cols : Option (List Name)) : Reads (colsSql cols) (colsPieces cols) := by
  cases cols with
  | none => exact reads_star
  | some names => exact reads_names names

theorem phrase_returning : Phrase " RETURNING ".toList [.keyword "RETURNING"] :=
  fun _ _ behind => behind.front 3 fun _ _ => rfl

theorem returning_reads : Reads returning returningPieces := phrase_returning.reads reads_star

theorem returning_part : Part returning := part_word (by decide) _

theorem set_reads (set : Name × Cell) : Reads (setSql set) (setPieces set) :=
  reads_named set.1 phrase_equals (fun _ => by simp) set.2.reads

theorem phrase_select : Phrase "SELECT ".toList [.keyword "SELECT"] := fun _ _ behind => behind.front 2 fun _ _ => rfl

theorem phrase_from : Phrase " FROM ".toList [.keyword "FROM"] := fun _ _ behind => behind.front 3 fun _ _ => rfl

theorem phrase_insert : Phrase "INSERT INTO ".toList [.keyword "INSERT",.keyword "INTO"] :=
  fun _ _ behind => behind.front 4 fun _ _ => rfl

theorem phrase_columns : Phrase " (".toList [.symbol ['(']] := fun _ _ behind => behind.front 2 fun _ _ => rfl

theorem phrase_values : Phrase ") VALUES (".toList [.symbol [')'],.keyword "VALUES",.symbol ['(']] :=
  fun _ _ behind => behind.front 5 fun _ _ => rfl

theorem phrase_closing : Phrase ")".toList [.symbol [')']] := fun _ _ behind => behind.front 1 fun _ _ => rfl

theorem phrase_update : Phrase "UPDATE ".toList [.keyword "UPDATE"] := fun _ _ behind => behind.front 2 fun _ _ => rfl

theorem phrase_sets : Phrase " SET ".toList [.keyword "SET"] := fun _ _ behind => behind.front 3 fun _ _ => rfl

theorem phrase_delete : Phrase "DELETE FROM ".toList [.keyword "DELETE",.keyword "FROM"] :=
  fun _ _ behind => behind.front 4 fun _ _ => rfl

theorem Statement.reads (st : Statement) : Reads st.sql st.pieces := by
  cases st with
  | select cols table filters order limit =>
    have tail := (order_reads order).append (limit_part limit) (limit_reads limit)
    have tail := (filters_read filters).append ((order_part order).append (limit_part limit)) tail
    have tail := (reads_name table).append ((filters_part filters).append ((order_part order).append (limit_part limit))) tail
    exact phrase_select.reads ((cols_read cols).joined phrase_from (fun _ => stops_word (by decide) _) tail)
  | insert table cols vals conflict =>
    have tail := (conflict_reads conflict).append returning_part returning_reads
    have cells := reads_commas Cell.sql Cell.pieces vals fun c _ => c.reads
    have tail := cells.joined phrase_closing (fun _ => stops_closing _) tail
    have tail := (reads_names cols).joined phrase_values (fun _ => stops_closing _) tail
    exact phrase_insert.reads (reads_named table phrase_columns (fun _ => by simp) tail)
  | update table sets filters =>
    have tail := (filters_read filters).append returning_part returning_reads
    have assigned := reads_commas setSql setPieces sets fun set _ => set_reads set
    have tail := assigned.append ((filters_part filters).append returning_part) tail
    exact phrase_update.reads (reads_named table phrase_sets (fun _ => by simp) tail)
  | delete table filters =>
    have tail := (filters_read filters).append returning_part returning_reads
    have tail := (reads_name table).append ((filters_part filters).append returning_part) tail
    exact phrase_delete.reads tail

end Reading

end Orrery.Chapter
