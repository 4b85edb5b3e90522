import SiliconHook.Properties.Grammar
import SiliconHook.Properties.Candidates

/-!
# Evaluating what was parsed

The parser's checks cover the evaluator: on a well-formed expression no arm that
stands for a forgotten block, arity or option is taken, whatever it would do, and an
error says what the request or a function's arguments lack.
-/

namespace SiliconHook

open Encoding

-- -----------------------------------------------------------------------------
-- The evaluator's arms
-- -----------------------------------------------------------------------------

/-- What stands where the parser lets no expression come: no argument to take, no
separator to join with, a function its group does not know. -/
structure DefensiveArms where
  missingArgument : Value
  joinWithoutSeparator : List Value → Except EvalError Value
  textFunction : Function → String → Except EvalError Value
  urlFunction : Function → Value → Except EvalError Value
  digest : Function → List UInt8 → Except EvalError Value
  encodingFunction : Function → Value → Except EvalError Value

namespace Eval

def sourceArms (lib : ExpressionLibrary) : DefensiveArms where
  missingArgument := .null
  joinWithoutSeparator arguments := concatenate .join (flatten arguments) none
  textFunction _ text := .ok (.text text)
  urlFunction function value := .error (.type function.name "text" value.typeName)
  digest _ bytes := .ok (.bytes (lib.digest .sha256 bytes))
  encodingFunction function value := .error (.type function.name "text or bytes" value.typeName)

section

variable (arms : DefensiveArms) (lib : ExpressionLibrary)

def singleWith (arguments : List Value) : Value := arguments.getLast?.getD arms.missingArgument

/-- The catch-all arm of the source also serves `utf8`. -/
def textFunction (function : Function) (value : Value) : Except EvalError Value := do
  let text ← argumentText function value
  match function with
  | .utf8 => return .text text
  | .lowercase => return .text (lib.lowercase text)
  | .uppercase => return .text (lib.uppercase text)
  | .trim => return .text (Text.trim text)
  | other => arms.textFunction other text

def urlFunction (function : Function) (value : Value) : Except EvalError Value :=
  match function with
  | .urlEncode | .urlDecode | .percentEncode | .percentDecode | .canonicalizeUrl
  | .canonicalizeQuery | .formEncode => applyFunction lib function none none [value]
  | other => arms.urlFunction other value

/-- The catch-all arm of the source also serves `sha256`. -/
def digestFunction (function : Function) (value : Value) : Except EvalError Value := do
  let bytes ← argumentBytes function value
  match function with
  | .sha1 => return .bytes (lib.digest .sha1 bytes)
  | .sha256 => return .bytes (lib.digest .sha256 bytes)
  | .sha384 => return .bytes (lib.digest .sha384 bytes)
  | .sha512 => return .bytes (lib.digest .sha512 bytes)
  | other => arms.digest other bytes

def encodingFunction (function : Function) (value : Value) : Except EvalError Value :=
  match function with
  | .hex | .hexDecode | .base64 | .base64Decode | .base64Url | .base64UrlDecode =>
    applyFunction lib function none none [value]
  | other => arms.encodingFunction other value

def evaluateCall (function : Function) (separator : Option String) (order : Option SortOrder)
    (arguments : List Value) : Except EvalError Value :=
  let argument := singleWith arms arguments
  match function with
  | .concat => concatenate function arguments none
  | .join =>
    match separator with
    | some separator => concatenate function (flatten arguments) (some separator)
    | none => arms.joinWithoutSeparator arguments
  | .sort => sortValues function argument (order.getD .ascending)
  | .sortKeys => sortKeys function argument (order.getD .ascending)
  | .utf8 | .lowercase | .uppercase | .trim => textFunction arms lib function argument
  | .ascii | .jsonEncode => applyFunction lib function none none [argument]
  | .urlEncode | .urlDecode | .percentEncode | .percentDecode | .canonicalizeUrl
  | .canonicalizeQuery | .formEncode => urlFunction arms lib function argument
  | .sha1 | .sha256 | .sha384 | .sha512 => digestFunction arms lib function argument
  | .hex | .hexDecode | .base64 | .base64Decode | .base64Url | .base64UrlDecode =>
    encodingFunction arms lib function argument

end

end Eval

mutual

def evaluateWith (arms : DefensiveArms) (lib : ExpressionLibrary) (context : EvalContext) :
    Expr → Except EvalError Value
  | .literal text => .ok (.text text)
  | .path path => evaluatePath lib context path
  | .call function arguments separator order => do
    Eval.evaluateCall arms lib function separator order
      (← evaluateAllWith arms lib context arguments)

def evaluateAllWith (arms : DefensiveArms) (lib : ExpressionLibrary) (context : EvalContext) :
    List Expr → Except EvalError (List Value)
  | [] => .ok []
  | argument :: rest => do
    return (← evaluateWith arms lib context argument) :: (← evaluateAllWith arms lib context rest)

end

-- -----------------------------------------------------------------------------
-- No defensive arm is taken
-- -----------------------------------------------------------------------------

section

variable {lib : ExpressionLibrary} {context : EvalContext} {function : Function}
  {arguments : List Value} {separator : Option String} {order : Option SortOrder}
  {arms : DefensiveArms}

/-- With the arms of the source every call is applied as the model applies it. -/
theorem Eval.evaluateCall_source :
    Eval.evaluateCall (Eval.sourceArms lib) lib function separator order arguments =
      Eval.applyFunction lib function separator order arguments := by
  cases function
  case join => cases separator <;> rfl
  all_goals rfl

theorem Eval.evaluateCall_fits (h : CallFits function arguments.length separator order) :
    Eval.evaluateCall arms lib function separator order arguments =
      Eval.applyFunction lib function separator order arguments := by
  have hsingle : Eval.singleWith arms arguments = Eval.single arguments := by
    cases arguments with
    | nil =>
      have harity := h.arity.1
      cases function <;> exact absurd harity (by decide)
    | cons first rest => rw [Eval.singleWith, Eval.single, List.getLast?_cons]; rfl
  cases function
  case join =>
    obtain ⟨value, rfl⟩ := Option.isSome_iff_exists.mp (h.separatorGiven rfl)
    rfl
  all_goals
    simp only [Eval.evaluateCall, hsingle]
    rfl

theorem evaluateAll_ok {es : List Expr} {values : List Value} :
    evaluateAll lib context es = .ok values ↔
      List.Forall₂ (fun e value => evaluate lib context e = .ok value) es values := by
  induction es generalizing values with
  | nil => rw [evaluateAll, Except.ok.injEq, List.forall₂_nil_left_iff, eq_comm]
  | cons e rest ih =>
    simp only [evaluateAll, Except.bind_ok, Except.pure_ok, List.forall₂_cons_left_iff, ih]
    constructor
    · rintro ⟨value, hvalue, values, hvalues, rfl⟩
      exact ⟨value, values, hvalue, hvalues, rfl⟩
    · rintro ⟨value, values, hvalue, hvalues, rfl⟩
      exact ⟨value, hvalue, values, hvalues, rfl⟩

mutual

theorem evaluateWith_source : ∀ e : Expr,
    evaluateWith (Eval.sourceArms lib) lib context e = evaluate lib context e
  | .literal _ => rfl
  | .path _ => rfl
  | .call function arguments separator order => by
    rw [evaluateWith, evaluate, evaluateAllWith_source arguments]
    exact congrArg (evaluateAll lib context arguments >>= ·)
      (funext fun _ => Eval.evaluateCall_source)

theorem evaluateAllWith_source : ∀ es : List Expr,
    evaluateAllWith (Eval.sourceArms lib) lib context es = evaluateAll lib context es
  | [] => rfl
  | e :: rest => by
    rw [evaluateAllWith, evaluateAll, evaluateWith_source e, evaluateAllWith_source rest]

end

mutual

/-- A well-formed expression takes no defensive arm: they may hold anything. -/
theorem evaluateWith_wellFormed : ∀ e : Expr, e.WellFormed →
    evaluateWith arms lib context e = evaluate lib context e
  | .literal _, _ => rfl
  | .path _, _ => rfl
  | .call function arguments separator order, ⟨hfits, harguments⟩ => by
    rw [evaluateWith, evaluate, evaluateAllWith_wellFormed arguments harguments]
    cases hall : evaluateAll lib context arguments with
    | error e => rfl
    | ok values =>
      have hlength : arguments.length = values.length := (evaluateAll_ok.mp hall).length_eq
      exact Eval.evaluateCall_fits (hlength ▸ hfits)

theorem evaluateAllWith_wellFormed : ∀ es : List Expr, Expr.WellFormedList es →
    evaluateAllWith arms lib context es = evaluateAll lib context es
  | [], _ => rfl
  | e :: rest, ⟨he, hrest⟩ => by
    rw [evaluateAllWith, evaluateAll, evaluateWith_wellFormed e he,
      evaluateAllWith_wellFormed rest hrest]

end

-- -----------------------------------------------------------------------------
-- What an error names
-- -----------------------------------------------------------------------------

inductive BlockFailure (lib : ExpressionLibrary) (context : EvalContext) (path : Path) :
    EvalError → Prop
  | bodyNotText (rest : List Segment) : path = ⟨.request, .key "raw_body" :: rest⟩ →
    fromUtf8 context.request.body = none → BlockFailure lib context path .bodyNotText
  | bodyNotJson (rest : List Segment) : path = ⟨.request, .key "body" :: rest⟩ →
    lib.parseJson context.request.body = none → BlockFailure lib context path .bodyNotJson
  | bodyNotForm (rest : List Segment) : path = ⟨.request, .key "form" :: rest⟩ →
    context.request.form lib = none → BlockFailure lib context path .bodyNotForm
  | bodyNotMultipart (rest : List Segment) : path = ⟨.request, .key "multipart" :: rest⟩ →
    context.request.multipartParts lib = none → BlockFailure lib context path .bodyNotMultipart
  | notIndexable (base reached : Value) (before after : List Segment) (segment : Segment) :
    baseOf lib context path = .ok (base, before ++ segment :: after) →
    indexInto path path.isHeaderBlock base before = .ok reached →
    reached.follow path.isHeaderBlock segment = none →
    BlockFailure lib context path (.notIndexable path.display)

/-- The error says that this function could not take what it received. -/
def EvalError.Blames (function : Function) : EvalError → Prop
  | .type name _ _ | .missing name | .invalidUtf8 name | .invalidEncoding name =>
    name = function.name
  | _ => False

/-- What an error says about the expression: a block of it that failed, or a function of
it that received a missing or incompatible value. -/
inductive Explained (lib : ExpressionLibrary) (context : EvalContext) : Expr → EvalError → Prop
  | block (path : Path) (e : EvalError) : BlockFailure lib context path e →
    Explained lib context (.path path) e
  | argument (function : Function) (arguments : List Expr) (separator : Option String)
    (order : Option SortOrder) (argument : Expr) (e : EvalError) : argument ∈ arguments →
    Explained lib context argument e →
    Explained lib context (.call function arguments separator order) e
  | function (function : Function) (arguments : List Expr) (separator : Option String)
    (order : Option SortOrder) (values : List Value) (e : EvalError) :
    evaluateAll lib context arguments = .ok values →
    Eval.applyFunction lib function separator order values = .error e → e.Blames function →
    Explained lib context (.call function arguments separator order) e

theorem orElse_error {found : Option α} {e e' : EvalError} :
    orElse found e = .error e' ↔ found = none ∧ e = e' := by
  cases found <;> simp [orElse]

theorem indexInto_error {path : Path} {lowercaseKeys : Bool} {segments : List Segment}
    {value : Value} {e : EvalError} (h : indexInto path lowercaseKeys value segments = .error e) :
    e = .notIndexable path.display ∧ ∃ before segment after reached,
      segments = before ++ segment :: after ∧
        indexInto path lowercaseKeys value before = .ok reached ∧
        reached.follow lowercaseKeys segment = none := by
  induction segments generalizing value with
  | nil => cases h
  | cons segment rest ih =>
    rw [indexInto] at h
    cases hnext : value.follow lowercaseKeys segment with
    | none =>
      rw [hnext] at h
      cases h
      exact ⟨rfl, [], segment, rest, value, rfl, rfl, hnext⟩
    | some next =>
      rw [hnext] at h
      obtain ⟨he, before, failing, after, reached, hsplit, hinto, hfollow⟩ := ih h
      refine ⟨he, segment :: before, failing, after, reached, congrArg (segment :: ·) hsplit, ?_,
        hfollow⟩
      rw [indexInto, hnext]
      exact hinto

theorem requestValue_error {block : String} {rest : List Segment} {e : EvalError}
    (hblock : block ∈ requestBlocks)
    (h : requestValue lib context ⟨.request, .key block :: rest⟩ block = .error e) :
    BlockFailure lib context ⟨.request, .key block :: rest⟩ e := by
  simp only [requestBlocks, List.mem_cons, List.not_mem_nil, or_false] at hblock
  rcases hblock with rfl | rfl | rfl | rfl | rfl | hrest
  · obtain ⟨hnone, rfl⟩ := orElse_error.mp (Except.map_error.mp h)
    exact .bodyNotText rest rfl hnone
  · cases h
  · obtain ⟨hnone, rfl⟩ := orElse_error.mp (Except.map_error.mp h)
    exact .bodyNotJson rest rfl hnone
  · obtain ⟨hnone, rfl⟩ := orElse_error.mp (Except.map_error.mp h)
    exact .bodyNotForm rest rfl hnone
  · obtain ⟨hnone, rfl⟩ := orElse_error.mp (Except.map_error.mp h)
    exact .bodyNotMultipart rest rfl hnone
  · -- The other blocks are parts every request has.
    rcases hrest with rfl | rfl | rfl | rfl | rfl | rfl | rfl | rfl | rfl | rfl | rfl | rfl <;>
      cases h

theorem baseOf_error {path : Path} {e : EvalError} (hs : path.supported = true)
    (h : baseOf lib context path = .error e) : BlockFailure lib context path e := by
  obtain ⟨root, segments⟩ := path
  cases root with
  | request =>
    match segments with
    | .key block :: rest =>
      exact requestValue_error (List.contains_iff_mem.mp hs) (Except.map_error.mp h)
    | [] => exact absurd hs (by decide)
    | .index _ :: _ => cases hs
  | hook =>
    match segments with
    | [.key block] =>
      have hname : block = "id" ∨ block = "url" := by simpa [Path.supported] using hs
      rcases hname with rfl | rfl <;> cases h
    | [] | [.index _] | _ :: _ :: _ => simp [Path.supported] at hs
  | secret =>
    match segments with
    | [] => cases h
    | _ :: _ => cases hs
  | key =>
    match segments with
    | [.key block] =>
      have hname : block = "public" := by simpa [Path.supported] using hs
      subst hname
      cases h
    | [] | [.index _] | _ :: _ :: _ => simp [Path.supported] at hs

theorem evaluatePath_error {path : Path} {e : EvalError} (hs : path.supported = true)
    (h : evaluatePath lib context path = .error e) : BlockFailure lib context path e := by
  rcases Except.bind_error.mp h with hbase | ⟨⟨base, rest⟩, hbase, hinto⟩
  · exact baseOf_error hs hbase
  · obtain ⟨rfl, before, segment, after, reached, rfl, hreached, hfollow⟩ := indexInto_error hinto
    exact .notIndexable base reached before after segment hbase hreached hfollow

theorem coerce_error {name expected : String} {result : Except ValueError α} {e : EvalError}
    (h : coerce name expected result = .error e) : ∃ error, e = .fromValue name expected error := by
  unfold coerce at h
  split at h <;> cases h
  exact ⟨_, rfl⟩

theorem EvalError.fromValue_blames {expected : String} (error : ValueError) :
    (fromValue function.name expected error).Blames function := by
  cases error <;> rfl

theorem coerce_blames {expected : String} {result : Except ValueError α} {e : EvalError}
    (h : coerce function.name expected result = .error e) : e.Blames function := by
  obtain ⟨error, rfl⟩ := coerce_error h
  exact EvalError.fromValue_blames error

namespace Eval

theorem concatenate_error {e : EvalError}
    (h : concatenate function arguments separator = .error e) : e.Blames function := by
  rcases Except.bind_error.mp h with hparts | ⟨parts, -, h⟩
  · obtain ⟨value, -, hvalue⟩ := Except.mapM_error hparts
    exact coerce_blames hvalue
  · dsimp only at h
    split at h
    · cases h
    · obtain ⟨-, rfl⟩ := orElse_error.mp (Except.map_error.mp h)
      rfl

theorem sortValues_error {value : Value} {direction : SortOrder} {e : EvalError}
    (h : sortValues function value direction = .error e) : e.Blames function := by
  rcases Except.bind_error.mp h with hlist | ⟨values, -, h⟩
  · exact coerce_blames hlist
  · rcases Except.bind_error.mp h with hkeyed | ⟨keyed, -, h⟩
    · obtain ⟨member, -, hmember⟩ := Except.mapM_error hkeyed
      exact coerce_blames (Except.map_error.mp hmember)
    · cases h

theorem objectPairs_error {members : List (String × Value)} {e : EvalError}
    (h : objectPairs function members = .error e) : e.Blames function := by
  obtain ⟨member, -, hmember⟩ := Except.mapM_error h
  exact coerce_blames (Except.map_error.mp hmember)

theorem queryArgument_error {value : Value} {e : EvalError}
    (h : queryArgument lib function value = .error e) : e.Blames function := by
  unfold queryArgument at h
  split at h
  · exact objectPairs_error h
  · rcases Except.bind_error.mp h with htext | ⟨_, -, h⟩
    · exact coerce_blames htext
    · cases h

theorem digest_error {hash : HashFunction} {value : Value} {e : EvalError}
    (h : digest lib hash function value = .error e) : e.Blames function := by
  rcases Except.bind_error.mp h with hbytes | ⟨_, -, h⟩
  · exact coerce_blames hbytes
  · cases h

theorem decodeText_error {decode : List Char → Option (List UInt8)} {value : Value} {e : EvalError}
    (h : decodeText function decode value = .error e) : e.Blames function := by
  rcases Except.bind_error.mp h with htext | ⟨_, -, h⟩
  · exact coerce_blames htext
  · obtain ⟨-, rfl⟩ := orElse_error.mp (Except.map_error.mp h)
    rfl

theorem applyFunction_error {e : EvalError}
    (h : applyFunction lib function separator order arguments = .error e) :
    e.Blames function := by
  cases hf : function <;> subst hf
  case concat | join => exact concatenate_error h
  case sort => exact sortValues_error h
  case sortKeys =>
    rcases Except.bind_error.mp h with hobject | ⟨_, -, h⟩
    · exact coerce_blames hobject
    · cases h
  case utf8 | lowercase | uppercase | trim | percentEncode =>
    exact coerce_blames (Except.map_error.mp h)
  case urlEncode | hex | base64 | base64Url | jsonEncode =>
    exact coerce_blames (Except.map_error.mp h)
  case ascii =>
    rcases Except.bind_error.mp h with htext | ⟨text, -, h⟩
    · exact coerce_blames htext
    · split at h <;> cases h
      rfl
  case urlDecode | percentDecode =>
    rcases Except.bind_error.mp h with htext | ⟨_, -, h⟩
    · exact coerce_blames htext
    · obtain ⟨-, rfl⟩ := orElse_error.mp (Except.map_error.mp h)
      rfl
  case canonicalizeUrl =>
    rcases Except.bind_error.mp h with htext | ⟨_, -, h⟩
    · exact coerce_blames htext
    · rcases Except.bind_error.mp h with hurl | ⟨_, -, h⟩
      · obtain ⟨-, rfl⟩ := orElse_error.mp hurl
        rfl
      · cases h
  case canonicalizeQuery =>
    rcases Except.bind_error.mp h with hpairs | ⟨_, -, h⟩
    · exact queryArgument_error hpairs
    · cases h
  case formEncode =>
    rcases Except.bind_error.mp h with hobject | ⟨_, -, h⟩
    · exact coerce_blames hobject
    · rcases Except.bind_error.mp h with hpairs | ⟨_, -, h⟩
      · exact objectPairs_error hpairs
      · cases h
  case sha1 | sha256 | sha384 | sha512 => exact digest_error h
  case hexDecode | base64Decode | base64UrlDecode =>
    unfold applyFunction at h
    exact decodeText_error h

end Eval

mutual

theorem evaluate_error {error : EvalError} : ∀ e : Expr, e.WellFormed →
    evaluate lib context e = .error error → Explained lib context e error
  | .literal _, _, h => by cases h
  | .path path, hs, h => .block path error (evaluatePath_error hs h)
  | .call function arguments separator order, ⟨_, harguments⟩, h => by
    rcases Except.bind_error.mp h with hall | ⟨values, hvalues, happly⟩
    · obtain ⟨argument, hm, hexplained⟩ := evaluateAll_error arguments harguments hall
      exact .argument function arguments separator order argument error hm hexplained
    · exact .function function arguments separator order values error hvalues happly
        (Eval.applyFunction_error happly)

theorem evaluateAll_error {error : EvalError} : ∀ es : List Expr, Expr.WellFormedList es →
    evaluateAll lib context es = .error error → ∃ e ∈ es, Explained lib context e error
  | [], _, h => by cases h
  | e :: rest, ⟨he, hrest⟩, h => by
    rcases Except.bind_error.mp h with hfirst | ⟨_, -, h⟩
    · exact ⟨e, List.mem_cons_self, evaluate_error e he hfirst⟩
    · rcases Except.bind_error.mp h with hmore | ⟨_, -, h⟩
      · obtain ⟨failing, hm, hexplained⟩ := evaluateAll_error rest hrest hmore
        exact ⟨failing, List.mem_cons_of_mem _ hm, hexplained⟩
      · cases h

end

theorem Explained.not_unsupported {e : Expr} {error : EvalError}
    (h : Explained lib context e error) (path : String) : error ≠ .unsupportedBlock path := by
  induction h with
  | block _ _ hblock => cases hblock <;> exact EvalError.noConfusion
  | argument _ _ _ _ _ _ _ _ ih => exact ih
  | function _ _ _ _ _ _ _ _ hblames =>
    rintro rfl
    exact hblames

/-- What the parser accepts never takes a defensive arm of the evaluator, whatever stands
there, and its evaluation gives a value or an error that says what is missing or incompatible. -/
theorem parsed_evaluation {source : String} {ast : Expr} (h : parse source = .ok ast)
    (lib : ExpressionLibrary) (context : EvalContext) :
    (∀ arms, evaluateWith arms lib context ast = evaluate lib context ast) ∧
      ∀ error, evaluate lib context ast = .error error →
        (∀ path, error ≠ .unsupportedBlock path) ∧ Explained lib context ast error := by
  obtain ⟨-, _, -, hderived⟩ := parse_ok.mp h
  refine ⟨fun arms => evaluateWith_wellFormed ast hderived.wellFormed, fun error herror => ?_⟩
  have hexplained := evaluate_error ast hderived.wellFormed herror
  exact ⟨hexplained.not_unsupported, hexplained⟩

end

inductive Expr.Reads (path : Path) : Expr → Prop
  | here : Reads path (.path path)
  | argument (function : Function) (arguments : List Expr) (separator : Option String)
    (order : Option SortOrder) (argument : Expr) : argument ∈ arguments → Reads path argument →
    Reads path (.call function arguments separator order)

namespace ConstantArgument

def source : String := "hex_decode(\"zz\")"

def ast : Expr := .call .hexDecode [.literal "zz"] none none

theorem source_parses : parse source = .ok ast := by decide +kernel

def context : EvalContext := ⟨LabelledSignature.request, "", "", none, none⟩

theorem constant_explained :
    (∀ arms, evaluateWith arms LabelledSignature.library context ast =
      evaluate LabelledSignature.library context ast) ∧
      ∀ error, evaluate LabelledSignature.library context ast = .error error →
        (∀ path, error ≠ .unsupportedBlock path) ∧
          Explained LabelledSignature.library context ast error :=
  parsed_evaluation source_parses LabelledSignature.library context

/-- The evaluation fails on a constant: nothing of the request is to blame. -/
theorem fails_without_request : ¬ ∀ (lib : ExpressionLibrary) (context : EvalContext)
    (source : String) (ast : Expr) (error : EvalError), parse source = .ok ast →
      evaluate lib context ast = .error error →
        ∃ path, path.root = .request ∧ ast.Reads path := by
  intro h
  obtain ⟨path, -, hreads⟩ := h LabelledSignature.library context source ast
    (.invalidEncoding "hex_decode") source_parses rfl
  cases hreads with
  | argument _ _ _ _ argument hm hargument =>
    rw [List.mem_singleton.mp hm] at hargument
    cases hargument

end ConstantArgument

end SiliconHook
