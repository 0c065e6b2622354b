import Orrery.Authority.Usage
import Orrery.Foundation.Casing

/-! `check_authority` of server/authority.py: a capped action is let through only on a count
that is known, apart from one outcome of the lookup. -/
namespace Orrery.Authority.Gate
open Foundation Foundation.Json

structure PyText where
  unicode : Casing.Unicode
  repr : Json → String
  str : Json → String

inductive Query
  | scope (agentId actionKind : String)
  | usage (agentId actionKind : String) (window : WindowKind) (windowStart : Int)

inductive Outcome
  | rows (rows : List Dict)
  | nothing
  | raised (e : Exc)

/-- The store, where there is one, and the time at which each window is looked up. -/
structure World where
  pgRequest : Option (Query → Outcome)
  clock : WindowKind → Int

def validActions : List String :=
  ["submit_intent","respond_to_intent","submit_call","respond_to_call","update_projection","rsvp_event",
    "accept_meeting","start_conversation","cross_chapter_message","publish_public_note","save_private_note"]

def windowName : WindowKind → String
  | .day => "day"
  | .week => "week"

section Python
variable (py : PyText)

def noAttribute (value : Json) (name : String) : Exc :=
  .attributeError s!"'{value.typeName}' object has no attribute '{name}'"

def toInt : Json → Except Exc Int
  | .int i => .ok i
  | .bool b => .ok (if b then 1 else 0)
  | .float q => .ok (if 0 ≤ q then q.floor else q.ceil)
  | .str text =>
    match py.unicode.pyInt text.toList with
    | some i => .ok i
    | none => .error (.valueError s!"invalid literal for int() with base 10: {py.repr (.str text)}")
  | other => .error (.typeError
      s!"int() argument must be a string, a bytes-like object or a real number, not '{other.typeName}'")

def isIn (x : Json) : Json → Except Exc Bool
  | .arr items => .ok (items.any (pyEq x))
  | .obj fields => (hashKey x).map fun key => fields.any fun field => key = .str field.1
  | .str text =>
    match x with
    | .str part => .ok (text.toList.tails.any fun tail => part.toList.isPrefixOf tail)
    | other => .error (.typeError s!"'in <string>' requires string as left operand, not {other.typeName}")
  | other => .error (.typeError s!"argument of type '{other.typeName}' is not iterable")

def subscript (key : String) : Json → Except Exc Json
  | .obj fields => item fields key
  | .arr _ => .error (.typeError "list indices must be integers or slices, not str")
  | .str _ => .error (.typeError "string indices must be integers, not 'str'")
  | other => .error (.typeError s!"'{other.typeName}' object is not subscriptable")

def getAttr (key : String) : Json → Except Exc Json
  | .obj fields => .ok ((get fields key).getD .null)
  | other => .error (noAttribute other "get")

end Python

section Lookups
variable (py : PyText) (world : World) (agentId actionKind : String)

def getScope : Option Dict :=
  match world.pgRequest with
  | none => none
  | some pgRequest =>
    match pgRequest (.scope agentId actionKind) with
    | .rows rows => rows.head?
    | .nothing | .raised _ => none

def usageLookupError (text : String) : Exc := .other "UsageLookupError" text

def countOf (rows : List Dict) : Except Exc Int :=
  match rows with
  | [] => .ok 0
  | row :: _ =>
    let count := (get row "count").getD .null
    toInt py (if count.truthy then count else .int 0)

def usageCount (window : WindowKind) : Except Exc Int :=
  match world.pgRequest with
  | none => .error (usageLookupError "no database configured for usage lookup")
  | some pgRequest =>
    match pgRequest (.usage agentId actionKind window (windowStart window (world.clock window))) with
    | .raised e =>
      .error (usageLookupError s!"usage lookup failed for {actionKind}/{windowName window}: {e.text}")
    | .nothing => .ok 0
    | .rows rows =>
      match countOf py rows with
      | .ok n => .ok n
      | .error e =>
        .error (usageLookupError s!"unparseable usage count for {actionKind}/{windowName window}: {e.text}")

end Lookups

section Constraints
variable (py : PyText) (actionKind : String) (constraints : Json) (context : Dict)

abbrev Usage := List (WindowKind × Int)

def capOf (window : WindowKind) : Except Exc Int := do toInt py (← subscript window.constraintKey constraints)

def isCapped (window : WindowKind) : Except Exc Bool := isIn (.str window.constraintKey) constraints

def rateLimit (currentUsage : Usage) (window : WindowKind) : Except Exc (Option String) := do
  if ← isCapped constraints window then
    let cap ← capOf py constraints window
    let used := (currentUsage.lookup window).getD 0
    return if cap ≤ used then some s!"rate_limit: {used}/{cap} per {windowName window}" else none
  else return none

def attendanceType : Except Exc (Option String) := do
  let allowedTypes ← getAttr "types" constraints
  let proposedType := (get context "type").getD .null
  if allowedTypes.truthy && proposedType.truthy then
    let listed ← isIn proposedType allowedTypes
    return if listed then none
      else some s!"attendance_type {py.repr proposedType} not in {py.str allowedTypes}"
  else return none

def duration : Except Exc (Option String) := do
  let maxMin ← getAttr "duration_max_min" constraints
  let dur := (get context "duration_min").getD .null
  if maxMin.truthy && dur.truthy then
    let minutes ← toInt py dur
    let bound ← toInt py maxMin
    return if bound < minutes then some s!"duration {py.str dur}m exceeds max {py.str maxMin}m" else none
  else return none

def outside (hours hour : Json) : Except Exc Bool :=
  match hours with
  | .str text =>
    match text.toList.splitOn '-' with
    | [start,last] => do
      let startH ← toInt py (.str (String.ofList (start.takeWhile (· ≠ ':'))))
      let endH ← toInt py (.str (String.ofList (last.takeWhile (· ≠ ':'))))
      let at_hour ← toInt py hour
      return !(decide (startH ≤ at_hour) && decide (at_hour < endH))
    | [_] | [] => .error (.valueError "not enough values to unpack (expected 2, got 1)")
    | _ => .error (.valueError "too many values to unpack (expected 2)")
  | other => .error (noAttribute other "split")

def meetingHours : Except Exc (Option String) := do
  let hours ← getAttr "hours" constraints
  match get context "hour" with
  | none | some .null => return none
  | some hour =>
    if hours.truthy then
      match outside py hours hour with
      | .ok true => return some s!"hour {py.str hour} outside {py.str hours}"
      | .ok false | .error (.valueError _) | .error (.attributeError _) => return none
      | .error e => .error e
    else return none

def firstReason : List (Except Exc (Option String)) → Except Exc (Option String)
  | [] => return none
  | check :: rest => do
    match ← check with
    | some reason => return some reason
    | none => firstReason rest

def actionChecks : List (Except Exc (Option String)) :=
  (if actionKind = "rsvp_event" then [attendanceType py constraints context] else []) ++
    if actionKind = "accept_meeting" then [duration py constraints context,meetingHours py constraints context] else []

def checkConstraints (currentUsage : Usage) : Except Exc (Bool × String) := do
  match ← firstReason ([rateLimit py constraints currentUsage .day,rateLimit py constraints currentUsage .week] ++
      actionChecks py actionKind constraints context) with
  | some reason => return (false,reason)
  | none => return (true,"ok")

end Constraints

structure Quota where
  window : WindowKind
  used : Int
  cap : Int

structure Decision where
  allowed : Bool
  reason : String
  actionKind : String
  optInRequired : Bool := false
  constraints : Option Json := none
  detail : Option String := none
  quota : Option (List Quota) := none

section Checks
variable (py : PyText) (world : World) (agentId actionKind : String) (context : Dict)

def constraintsOf (scope : Dict) : Json :=
  let constraints := (get scope "constraints").getD .null
  if constraints.truthy then constraints else .obj []

def currentUsage (constraints : Json) : List WindowKind → Except Exc Usage
  | [] => return []
  | window :: rest => do
    if ← isCapped constraints window then
      let used ← usageCount py world agentId actionKind window
      return (window,used) :: (← currentUsage constraints rest)
    else currentUsage constraints rest

def quotaOf (constraints : Json) (usage : Usage) : List WindowKind → Except Exc (List Quota)
  | [] => return []
  | window :: rest => do
    if ← isCapped constraints window then
      let cap ← capOf py constraints window
      return ⟨window,(usage.lookup window).getD 0,cap⟩ :: (← quotaOf constraints usage rest)
    else quotaOf constraints usage rest

def windows : List WindowKind := [.day,.week]

def checkAllowed (constraints : Json) : Except Exc Decision :=
  match currentUsage py world agentId actionKind constraints windows with
  | .error e =>
    if e.kind = "UsageLookupError" then
      .ok { allowed := false, reason := "quota_check_failed", actionKind, constraints := some constraints,
            detail := some (String.ofList (e.text.toList.take 200)) }
    else .error e
  | .ok usage => do
    let (allowed,reason) ← checkConstraints py actionKind constraints context usage
    let quota ← quotaOf py constraints usage windows
    return { allowed, reason, actionKind, constraints := some constraints, quota := some quota }

def checkAuthority : Except Exc Decision :=
  if actionKind ∉ validActions then .ok { allowed := false, reason := "unknown_action", actionKind }
  else match getScope world agentId actionKind with
    | none => .ok { allowed := false, reason := "no_scope_configured", actionKind }
    | some scope =>
      if ((get scope "allowed").getD .null).truthy then
        checkAllowed py world agentId actionKind context (constraintsOf scope)
      else .ok { allowed := false, reason := "action_not_allowed", actionKind, optInRequired := true }

end Checks

section Conditions
variable (py : PyText) (world : World) (agentId actionKind : String) (context : Dict)

def usageLookup (window : WindowKind) : Option Outcome :=
  world.pgRequest.map fun pgRequest =>
    pgRequest (.usage agentId actionKind window (windowStart window (world.clock window)))

def Reports (window : WindowKind) (n : Int) : Prop :=
  ∃ rows, usageLookup world agentId actionKind window = some (.rows rows) ∧ countOf py rows = .ok n

def Taken (window : WindowKind) (n : Int) : Prop :=
  Reports py world agentId actionKind window n ∨
    usageLookup world agentId actionKind window = some .nothing ∧ n = 0

/-- An action is let through only on counts that are known and below their caps. -/
def FailsClosed : Prop := ∀ decision scope, checkAuthority py world agentId actionKind context = .ok decision →
  decision.allowed = true → getScope world agentId actionKind = some scope →
    ∀ window, isCapped (constraintsOf scope) window = .ok true → ∃ n cap,
      Reports py world agentId actionKind window n ∧ capOf py (constraintsOf scope) window = .ok cap ∧ n < cap

structure Admits (scope : Dict) : Prop where
  known : actionKind ∈ validActions
  held : getScope world agentId actionKind = some scope
  allowed : ((get scope "allowed").getD .null).truthy = true
  readable : ∀ window, ∃ capped, isCapped (constraintsOf scope) window = .ok capped
  counts : ∀ window, isCapped (constraintsOf scope) window = .ok true → ∃ n cap,
    Taken py world agentId actionKind window n ∧ capOf py (constraintsOf scope) window = .ok cap ∧ n < cap
  passes : ∀ check ∈ actionChecks py actionKind (constraintsOf scope) context, check = .ok none

end Conditions

section Lookups
variable {py : PyText} {world : World} {agentId actionKind : String} {context : Dict} {constraints : Json}

theorem usageCount_ok {window : WindowKind} {n : Int} :
    usageCount py world agentId actionKind window = .ok n ↔ Taken py world agentId actionKind window n := by
  unfold usageCount Taken Reports usageLookup
  cases world.pgRequest with
  | none => simp
  | some pgRequest =>
    simp only [Option.map_some,Option.some.injEq]
    cases pgRequest (.usage agentId actionKind window (windowStart window (world.clock window))) with
    | raised e => simp
    | nothing => simp [eq_comm]
    | rows rows => rcases counted : countOf py rows with e | m <;> simp [counted]

theorem firstReason_none {checks : List (Except Exc (Option String))} :
    firstReason checks = .ok none ↔ ∀ check ∈ checks, check = .ok none := by
  induction checks with
  | nil => simp [firstReason]; rfl
  | cons check rest ih =>
    rw [List.forall_mem_cons,← ih]
    rcases check with e | _ | reason
    · simp [firstReason,bind,Except.bind]
    · simp [firstReason,bind,Except.bind]
    · simp [firstReason,bind,Except.bind,pure,Except.pure]

theorem rateLimit_none {usage : Usage} {window : WindowKind} : rateLimit py constraints usage window = .ok none ↔
    isCapped constraints window = .ok false ∨ isCapped constraints window = .ok true ∧
      ∃ cap, capOf py constraints window = .ok cap ∧ (usage.lookup window).getD 0 < cap := by
  unfold rateLimit
  rcases isCapped constraints window with e | _ | _
  · simp [bind,Except.bind]
  · simp [bind,Except.bind,pure,Except.pure]
  · cases capOf py constraints window <;> simp [bind,Except.bind,pure,Except.pure]

theorem currentUsage_ok {windows : List WindowKind} :
    (∃ usage, currentUsage py world agentId actionKind constraints windows = .ok usage) ↔
      ∀ window ∈ windows, isCapped constraints window = .ok false ∨ isCapped constraints window = .ok true ∧
        ∃ n, usageCount py world agentId actionKind window = .ok n := by
  induction windows with
  | nil => simp [currentUsage,pure,Except.pure]
  | cons window rest ih =>
    rw [List.forall_mem_cons,← ih,currentUsage]
    rcases isCapped constraints window with e | _ | _
    · simp [bind,Except.bind]
    · simp [bind,Except.bind]
    · rcases usageCount py world agentId actionKind window with e | n
      · simp [bind,Except.bind]
      · rcases currentUsage py world agentId actionKind constraints rest with e | usage
        · simp [bind,Except.bind]
        · simp [bind,Except.bind,pure,Except.pure]

theorem currentUsage_lookup {windows : List WindowKind} : ∀ {usage : Usage},
    currentUsage py world agentId actionKind constraints windows = .ok usage → ∀ window ∈ windows,
      isCapped constraints window = .ok true →
        ∃ n, usageCount py world agentId actionKind window = .ok n ∧ usage.lookup window = some n := by
  induction windows with
  | nil => exact fun _ _ inside => absurd inside List.not_mem_nil
  | cons first rest ih =>
    intro usage read window inside capped
    rw [currentUsage] at read
    obtain ⟨b,here,read⟩ := bind_success _ _ _ read
    cases b with
    | false =>
      have later : window ∈ rest := by
        refine (List.mem_cons.mp inside).resolve_left fun same => ?_
        rw [same,here] at capped
        cases capped
      exact ih read window later capped
    | true =>
      obtain ⟨used,counted,read⟩ := bind_success _ _ _ read
      obtain ⟨others,further,read⟩ := bind_success _ _ _ read
      obtain rfl := Except.ok.inj read
      by_cases same : window = first
      · subst same
        exact ⟨used,counted,List.lookup_cons_self⟩
      · obtain ⟨n,count,found⟩ := ih further window ((List.mem_cons.mp inside).resolve_left same) capped
        refine ⟨n,count,?_⟩
        rw [List.lookup_cons,beq_eq_false_iff_ne.mpr same]
        exact found

theorem quotaOf_ok {usage : Usage} {windows : List WindowKind} (caps : ∀ window ∈ windows,
    isCapped constraints window = .ok false ∨ isCapped constraints window = .ok true ∧
      ∃ cap, capOf py constraints window = .ok cap) :
    ∃ quota, quotaOf py constraints usage windows = .ok quota := by
  induction windows with
  | nil => exact ⟨[],rfl⟩
  | cons window rest ih =>
    obtain ⟨here,later⟩ := List.forall_mem_cons.mp caps
    obtain ⟨quota,read⟩ := ih later
    rw [quotaOf,read]
    obtain uncapped | ⟨capped,cap,value⟩ := here
    · rw [uncapped]
      exact ⟨quota,rfl⟩
    · rw [capped,value]
      exact ⟨_,rfl⟩

theorem mem_windows (window : WindowKind) : window ∈ windows := by cases window <;> decide

theorem checkConstraints_allowed {usage : Usage} :
    (∃ reason, checkConstraints py actionKind constraints context usage = .ok (true,reason)) ↔
      (∀ window, rateLimit py constraints usage window = .ok none) ∧
        ∀ check ∈ actionChecks py actionKind constraints context, check = .ok none := by
  have checked : (∃ reason, checkConstraints py actionKind constraints context usage = .ok (true,reason)) ↔
      firstReason ([rateLimit py constraints usage .day,rateLimit py constraints usage .week] ++
        actionChecks py actionKind constraints context) = .ok none := by
    unfold checkConstraints
    rcases firstReason ([rateLimit py constraints usage .day,rateLimit py constraints usage .week] ++
        actionChecks py actionKind constraints context) with e | _ | reason
    · simp [bind,Except.bind]
    · simp [bind,Except.bind,pure,Except.pure]
    · simp [bind,Except.bind,pure,Except.pure]
  rw [checked,firstReason_none]
  constructor
  · intro all
    refine ⟨fun window => ?_,fun check inside => all check (List.mem_append_right _ inside)⟩
    cases window with
    | day => exact all _ (by simp)
    | week => exact all _ (by simp)
  · rintro ⟨rates,checks⟩ check inside
    obtain rate | inside := List.mem_append.mp inside
    · simp only [List.mem_cons,List.not_mem_nil,or_false] at rate
      obtain rfl | rfl := rate
      · exact rates .day
      · exact rates .week
    · exact checks check inside

def Below (py : PyText) (world : World) (agentId actionKind : String) (constraints : Json) (window : WindowKind) : Prop :=
  isCapped constraints window = .ok false ∨ isCapped constraints window = .ok true ∧
    ∃ n cap, usageCount py world agentId actionKind window = .ok n ∧ capOf py constraints window = .ok cap ∧ n < cap

theorem rateLimit_below {usage : Usage} (read : currentUsage py world agentId actionKind constraints windows = .ok usage)
    (window : WindowKind) : rateLimit py constraints usage window = .ok none ↔
      Below py world agentId actionKind constraints window := by
  rw [rateLimit_none,Below]
  apply or_congr_right
  apply and_congr_right
  intro capped
  obtain ⟨n,counted,found⟩ := currentUsage_lookup read window (mem_windows window) capped
  rw [found,Option.getD_some,counted]
  constructor
  · rintro ⟨cap,value,less⟩
    exact ⟨n,cap,rfl,value,less⟩
  · rintro ⟨m,cap,same,value,less⟩
    obtain rfl := Except.ok.inj same
    exact ⟨cap,value,less⟩

theorem checkAllowed_allowed : (∃ decision, checkAllowed py world agentId actionKind context constraints = .ok decision ∧
      decision.allowed = true) ↔ (∀ window, Below py world agentId actionKind constraints window) ∧
        ∀ check ∈ actionChecks py actionKind constraints context, check = .ok none := by
  unfold checkAllowed
  constructor
  · rintro ⟨decision,decided,allowed⟩
    cases read : currentUsage py world agentId actionKind constraints windows with
    | error e =>
      rw [read] at decided
      dsimp only at decided
      split at decided
      next =>
        obtain rfl := Except.ok.inj decided
        cases allowed
      next => cases decided
    | ok usage =>
      rw [read] at decided
      obtain ⟨⟨granted,reason⟩,checked,decided⟩ := bind_success _ _ _ decided
      obtain ⟨quota,_,decided⟩ := bind_success _ _ _ decided
      obtain rfl := Except.ok.inj decided
      obtain rfl : granted = true := allowed
      obtain ⟨rates,checks⟩ := checkConstraints_allowed.mp ⟨reason,checked⟩
      exact ⟨fun window => (rateLimit_below read window).mp (rates window),checks⟩
  · rintro ⟨below,checks⟩
    obtain ⟨usage,read⟩ := (@currentUsage_ok py world agentId actionKind constraints windows).mpr fun window _ =>
      (below window).imp_right fun ⟨capped,n,_,counted,_⟩ => ⟨capped,n,counted⟩
    obtain ⟨reason,checked⟩ := checkConstraints_allowed.mpr
      ⟨fun window => (rateLimit_below read window).mpr (below window),checks⟩
    obtain ⟨quota,stated⟩ := @quotaOf_ok py constraints usage windows fun window _ =>
      (below window).imp_right fun ⟨capped,_,cap,_,value,_⟩ => ⟨capped,cap,value⟩
    rw [read]
    dsimp only
    rw [checked,ok_bind,stated]
    exact ⟨_,rfl,rfl⟩

theorem checkAuthority_allowed {scope : Dict} (held : getScope world agentId actionKind = some scope) :
    (∃ decision, checkAuthority py world agentId actionKind context = .ok decision ∧ decision.allowed = true) ↔
      Admits py world agentId actionKind context scope := by
  have readable_iff : (∀ window, Below py world agentId actionKind (constraintsOf scope) window) ↔
      (∀ window, ∃ capped, isCapped (constraintsOf scope) window = .ok capped) ∧
        ∀ window, isCapped (constraintsOf scope) window = .ok true → ∃ n cap,
          Taken py world agentId actionKind window n ∧ capOf py (constraintsOf scope) window = .ok cap ∧ n < cap := by
    simp only [Below,usageCount_ok]
    rw [← forall_and]
    apply forall_congr'
    intro window
    rcases isCapped (constraintsOf scope) window with e | _ | _ <;> simp
  unfold checkAuthority
  constructor
  · rintro ⟨decision,decided,allowed⟩
    split at decided
    next =>
      obtain rfl := Except.ok.inj decided
      cases allowed
    next known =>
      rw [held] at decided
      dsimp only at decided
      split at decided
      next opted =>
        obtain ⟨below,checks⟩ := checkAllowed_allowed.mp ⟨decision,decided,allowed⟩
        obtain ⟨readable,counts⟩ := readable_iff.mp below
        exact ⟨not_not.mp known,held,opted,readable,counts,checks⟩
      next =>
        obtain rfl := Except.ok.inj decided
        cases allowed
  · intro admits
    rw [if_neg (not_not.mpr admits.known),held]
    dsimp only
    rw [if_pos admits.allowed]
    exact checkAllowed_allowed.mpr ⟨readable_iff.mpr ⟨admits.readable,admits.counts⟩,admits.passes⟩

end Lookups

/-- The gate fails closed exactly where an action that nothing else stands in the way of has no
capped window whose lookup gave None. -/
theorem failsClosed_iff (py : PyText) (world : World) (agentId actionKind : String) (context : Dict) :
    FailsClosed py world agentId actionKind context ↔ ∀ scope, Admits py world agentId actionKind context scope →
      ∀ window, isCapped (constraintsOf scope) window = .ok true →
        usageLookup world agentId actionKind window ≠ some .nothing := by
  constructor
  · intro closed scope admits window capped missing
    obtain ⟨decision,decided,allowed⟩ := (checkAuthority_allowed admits.held).mpr admits
    obtain ⟨n,cap,⟨rows,answered,_⟩,_⟩ := closed decision scope decided allowed admits.held window capped
    rw [missing] at answered
    cases answered
  · intro answered decision scope decided allowed held window capped
    have admits := (checkAuthority_allowed held).mp ⟨decision,decided,allowed⟩
    obtain ⟨n,cap,taken | ⟨missing,_⟩,value,less⟩ := admits.counts window capped
    · exact ⟨n,cap,taken,value,less⟩
    · exact absurd missing (answered scope admits window capped)

def unreadCounters : World where
  pgRequest := some fun query => match query with
    | .scope .. => .rows [[("allowed",.bool true),("constraints",.obj [("max_per_week",.int 3)])]]
    | .usage .. => .nothing
  clock _ := 0

def asciiText : PyText := ⟨Casing.Unicode.ascii,fun _ => "",fun _ => ""⟩

def letThrough : Decision where
  allowed := true
  reason := "ok"
  actionKind := "submit_intent"
  constraints := some (.obj [("max_per_week",.int 3)])
  quota := some [⟨.week,0,3⟩]

theorem unread_allowed : ¬ FailsClosed asciiText unreadCounters "ann" "submit_intent" [] := by
  intro closed
  have admitted : checkAuthority asciiText unreadCounters "ann" "submit_intent" [] = .ok letThrough := by rfl
  obtain ⟨n,cap,⟨rows,answered,_⟩,_⟩ := closed _ _ admitted rfl rfl .week rfl
  cases answered

end Orrery.Authority.Gate
