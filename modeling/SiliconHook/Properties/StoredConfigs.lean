import SiliconHook.Application.Lifecycle
import SiliconHook.Domain.ConfigColumn
import SiliconHook.Properties.Rendering

/-!
# Stored signing configurations

White space at the ends of a source is no part of its tokens, so the trimmed source
that is stored parses to the same expression, and a stored configuration is read
back as it was written.
-/

namespace SiliconHook

open Text

-- -----------------------------------------------------------------------------
-- Tokens before white space
-- -----------------------------------------------------------------------------

theorem isWhiteSpace_not_name {c : Char} (h : isWhiteSpace c = true) : isNameChar c = false := by
  by_contra hname
  have hgraphic := isNameChar_graphic (eq_true_of_ne_false hname)
  exact Bool.noConfusion (h.symm.trans (isAsciiGraphic_not_whiteSpace hgraphic))

theorem isWhiteSpace_not_digit {c : Char} (h : isWhiteSpace c = true) : isAsciiDigit c = false :=
  isAsciiDigit_name (isWhiteSpace_not_name h)

theorem lexString_closed {size start : Nat} {chars value rest : List Char}
    (h : lexString size start chars = .ok (value, rest)) :
    ∃ body, chars = body ++ '"' :: rest ∧ ∀ size' start' rest',
      lexString size' start' (body ++ '"' :: rest') = .ok (value, rest') := by
  have hmap : ∀ {c : Char} {r : Except ParseError (List Char × List Char)} {value rest},
      r.map (fun read => (c :: read.1, read.2)) = .ok (value, rest) →
      ∃ value', r = .ok (value', rest) ∧ value = c :: value' := by
    intro c r value rest h
    obtain ⟨⟨value', rest'⟩, hr, heq⟩ := Except.map_ok.mp h
    cases heq
    exact ⟨value', hr, rfl⟩
  fun_induction lexString size start chars generalizing value rest with
  | case1 => cases h
  | case2 tail =>
    cases h
    refine ⟨[], rfl, fun size' start' rest' => ?_⟩
    rw [List.nil_append, lexString]
  | case3 => cases h
  | case4 => cases h
  | case5 a b c d tail escaped hescape ih =>
    obtain ⟨value', hr, rfl⟩ := hmap h
    obtain ⟨body, rfl, hbody⟩ := ih hr
    refine ⟨'\\' :: 'u' :: a :: b :: c :: d :: body, rfl, fun size' start' rest' => ?_⟩
    simp only [List.cons_append]
    rw [lexString, hescape]
    exact congrArg (Except.map _) (hbody size' start' rest')
  | case6 => cases h
  | case7 escaped tail hshort c hescape ih =>
    obtain ⟨value', hr, rfl⟩ := hmap h
    obtain ⟨body, rfl, hbody⟩ := ih hr
    refine ⟨'\\' :: escaped :: body, rfl, fun size' start' rest' => ?_⟩
    have hne : escaped ≠ 'u' := by
      rintro rfl
      cases hescape
    simp only [List.cons_append]
    rw [lexString, hescape]
    · exact congrArg (Except.map _) (hbody size' start' rest')
    · exact fun _ _ _ _ _ h => absurd h hne
  | case8 => cases h
  | case9 c tail hquote _ _ hescape hplain ih =>
    obtain ⟨value', hr, rfl⟩ := hmap h
    obtain ⟨body, rfl, hbody⟩ := ih hr
    refine ⟨c :: body, rfl, fun size' start' rest' => ?_⟩
    have hback : c ≠ '\\' := by
      intro hc
      cases body with
      | nil => exact hescape _ _ hc rfl
      | cons d more => exact hescape _ _ hc rfl
    rw [List.cons_append, lexString_raw hquote hback, if_neg hplain]
    exact congrArg (Except.map _) (hbody size' start' rest')

section

variable {ws : List Char}

/-- White space after a text that starts with a token is left over, and the rest of
the text is what the token leaves of it. -/
theorem lexToken_before_space {size : Nat} {c : Char} {chars rest : List Char} {token : Token}
    (hws : ∀ c ∈ ws, isWhiteSpace c = true)
    (h : lexToken size c (chars ++ ws) = .ok (token, rest)) :
    ∃ left, rest = left ++ ws ∧ ∀ size', lexToken size' c chars = .ok (token, left) := by
  have hword : ∀ {p : Char → Bool}, (∀ c, isWhiteSpace c = true → p c = false) →
      (chars ++ ws).takeWhile p = chars.takeWhile p ∧
        (chars ++ ws).dropWhile p = chars.dropWhile p ++ ws :=
    fun hp => takeWhile_append_outside fun c hc => hp c (hws c hc)
  obtain ⟨hdigits, hdigits'⟩ := hword fun _ => isWhiteSpace_not_digit
  obtain ⟨hname, hname'⟩ := hword fun _ => isWhiteSpace_not_name
  unfold lexToken at h
  split at h
  iterate 7
    · cases h
      exact ⟨chars, rfl, fun size' => by rw [lexToken]⟩
  · obtain ⟨⟨value, tail⟩, hread, heq⟩ := Except.map_ok.mp h
    cases heq
    obtain ⟨body, hsplit, hclosed⟩ := lexString_closed hread
    rcases List.append_eq_append_iff.mp hsplit with ⟨more, -, hmore⟩ | ⟨more, hchars, hmore⟩
    · have hquote : isWhiteSpace '"' = true := hws '"' (by simp [hmore])
      cases hquote
    · cases more with
      | nil =>
        have hquote : isWhiteSpace '"' = true := hws '"' (by
          rw [← List.nil_append ws, ← hmore]
          exact List.mem_cons_self)
        cases hquote
      | cons quote left =>
        rw [List.cons_append] at hmore
        obtain ⟨rfl, rfl⟩ := List.cons.inj hmore
        refine ⟨left, rfl, fun size' => ?_⟩
        rw [hchars, lexToken, hclosed]
        rfl
  · rename_i h₁ h₂ h₃ h₄ h₅ h₆ h₇ h₈
    have hstart : ∀ size', lexToken size' c chars =
        if isAsciiDigit c then
          if decimal (c :: chars.takeWhile isAsciiDigit) ≤ usizeMax then
            .ok (.integer (decimal (c :: chars.takeWhile isAsciiDigit)),
              chars.dropWhile isAsciiDigit)
          else .error ⟨offsetOf size' (c :: chars), .unexpectedCharacter c⟩
        else if isNameStart c then
          .ok (.identifier (String.ofList (c :: chars.takeWhile isNameChar)),
            chars.dropWhile isNameChar)
        else .error ⟨offsetOf size' (c :: chars), .unexpectedCharacter c⟩ := by
      intro size'
      unfold lexToken
      split <;> first | contradiction | rfl
    dsimp only at h
    split at h
    · rename_i hdigit
      split at h
      · rename_i hbound
        cases h
        rw [hdigits] at hbound ⊢
        refine ⟨_, hdigits', fun size' => ?_⟩
        rw [hstart, if_pos hdigit, if_pos hbound]
      · cases h
    · rename_i hdigit
      split at h
      · rename_i hstarts
        cases h
        rw [hname]
        refine ⟨_, hname', fun size' => ?_⟩
        rw [hstart, if_neg hdigit, if_pos hstarts]
      · cases h

theorem tokensOf_before (size : Nat) (chars : List Char) (hws : ∀ c ∈ ws, isWhiteSpace c = true) :
    tokensOf size (ws ++ chars) = tokensOf size chars := by
  induction ws with
  | nil => rfl
  | cons c rest ih =>
    rw [List.cons_append, tokensOf_space (hws c List.mem_cons_self)]
    exact ih fun d hd => hws d (List.mem_cons_of_mem _ hd)

theorem tokensOf_after {size : Nat} {chars : List Char} {ts : List Token}
    (hws : ∀ c ∈ ws, isWhiteSpace c = true) (h : tokensOf size (chars ++ ws) = some ts)
    (size' : Nat) : tokensOf size' chars = some ts := by
  have hempty : ∀ size, tokensOf size [] = some [] := by
    intro size
    rw [tokensOf, lex]
    rfl
  -- A token may be long, so the induction is on the length of what is left.
  induction hn : chars.length using Nat.strongRecOn generalizing chars ts with
  | ind n ih =>
    cases chars with
    | nil =>
      have hblank := tokensOf_before size [] hws
      rw [List.append_nil] at hblank
      rw [List.nil_append, hblank, hempty] at h
      rw [hempty]
      exact h
    | cons c rest =>
      rw [List.length_cons] at hn
      rw [List.cons_append] at h
      by_cases hspace : isWhiteSpace c = true
      · rw [tokensOf_space hspace] at h ⊢
        exact ih rest.length (by omega) h rfl
      · rw [Bool.not_eq_true] at hspace
        cases hread : lexToken size c (rest ++ ws) with
        | error e =>
          rw [tokensOf_error hspace hread] at h
          cases h
        | ok read =>
          obtain ⟨token, tail⟩ := read
          obtain ⟨left, rfl, hleft⟩ := lexToken_before_space hws hread
          rw [tokensOf_token hspace hread] at h
          obtain ⟨more, hmore, rfl⟩ := Option.map_eq_some_iff.mp h
          have hless : left.length ≤ rest.length := lexToken_length (hleft size)
          rw [tokensOf_token hspace (hleft size'), ih left.length (by omega) hmore rfl]
          rfl

end

theorem parse_trim {source : String} {e : Expr} (h : parse source = .ok e) :
    parse (trim source) = .ok e := by
  obtain ⟨hsize, found, hlex, hderived⟩ := parse_ok.mp h
  obtain ⟨front, back, hsplit, hfront, hback⟩ := trimBy_split isWhiteSpace source.toList
  have htext : source = String.ofList front ++ trim source ++ String.ofList back := by
    apply String.toList_inj.mp
    simpa [trim] using hsplit
  have hfits : (trim source).utf8ByteSize ≤ maxExpressionBytes := by
    have hbytes := congrArg String.utf8ByteSize htext
    rw [String.utf8ByteSize_append, String.utf8ByteSize_append] at hbytes
    omega
  have htokens := tokensOf_eq_some.mpr ⟨found, hlex, rfl⟩
  rw [hsplit, List.append_assoc, tokensOf_before _ _ hfront] at htokens
  have htrimmed := tokensOf_after hback htokens (trim source).utf8ByteSize
  obtain ⟨again, hagain, hmap⟩ := tokensOf_eq_some.mp htrimmed
  refine parse_ok.mpr ⟨hfits, again, ?_, hmap ▸ hderived⟩
  rw [trim, String.toList_ofList]
  exact hagain

theorem trim_trim (text : String) : trim (trim text) = trim text := by
  rw [trim, trim, String.toList_ofList, trimBy_trimBy]

theorem Expression.parse_source {source : String} {e : Expression}
    (h : Expression.parse source = .ok e) : Expression.parse e.source = .ok e := by
  obtain ⟨parsed, hparse, rfl⟩ := Except.map_ok.mp h
  refine Except.map_ok.mpr ⟨parsed, parse_trim hparse, ?_⟩
  rw [trim_trim]

-- -----------------------------------------------------------------------------
-- Configurations
-- -----------------------------------------------------------------------------

/-- An expression the service holds: what some source parsed to. -/
def Expression.Parsed (e : Expression) : Prop := ∃ source, Expression.parse source = .ok e

namespace SignatureConfig

/-- The configurations the service accepts: its two own, and a patch of parsed expressions
resolved on an accepted one. -/
inductive Accepted : SignatureConfig → Prop
  | default : Accepted .default
  | accounts : Accepted HookApplication.accountsSigningInput.config
  | resolved (patch : SigningPatch) (base : SignatureConfig) (required : Bool) : Accepted base →
    (∀ e ∈ patch.payload, e.Parsed) → (∀ e ∈ patch.signature, e.Parsed) →
    Accepted (patch.resolve base required).config

theorem Accepted.parsed {config : SignatureConfig} (h : config.Accepted) :
    config.payload.Parsed ∧ config.signature.Parsed := by
  induction h with
  | default => exact ⟨⟨defaultPayloadExpression.source, by decide +kernel⟩,
      ⟨defaultSignatureExpression.source, by decide +kernel⟩⟩
  | accounts =>
    exact ⟨⟨HookApplication.accountsSigningInput.config.payload.source, by decide +kernel⟩,
      ⟨HookApplication.accountsSigningInput.config.signature.source, by decide +kernel⟩⟩
  | resolved patch base required _ hpayload hsignature ih =>
    constructor
    · show (patch.payload.getD base.payload).Parsed
      cases hp : patch.payload with
      | none => exact ih.1
      | some e => exact hpayload e hp
    · show (patch.signature.getD base.signature).Parsed
      cases hp : patch.signature with
      | none => exact ih.2
      | some e => exact hsignature e hp

theorem toJson_members (config : SignatureConfig) : config.toJson = .object (
    [("algorithm", .string config.algorithm.asStr), ("payload", .string config.payload.source)] ++
    (config.publicKey.map fun material => ("public_key", .string material)).toList ++
    [("secret_encoding", .string config.secretEncoding.asStr),
      ("signature", .string config.signature.source),
      ("signature_encoding", .string config.signatureEncoding.asStr)]) := by
  cases h : config.publicKey <;> rw [toJson, members, h] <;> rfl

theorem variant_parsed {α : Type} {name text : String} {parse : String → Option α} {a : α}
    (h : parse text = some a) : ConfigFields.variant name parse (.string text) = .ok a := by
  have htext : ConfigFields.text name (.string text) = .ok text := rfl
  simp only [ConfigFields.variant, htext, bind, Except.bind, h]
  rfl

theorem expression_parsed {name : String} {e : Expression}
    (h : Expression.parse e.source = .ok e) :
    ConfigFields.expression name (.string e.source) = .ok e := by
  show (Expression.parse e.source).mapError (ConfigReadError.expression name) = _
  rw [h]
  rfl

theorem fromJson_toJson {config : SignatureConfig} (hpayload : config.payload.Parsed)
    (hsignature : config.signature.Parsed) : fromJson config.toJson = .ok config := by
  obtain ⟨_, hp⟩ := hpayload
  obtain ⟨_, hs⟩ := hsignature
  obtain ⟨algorithm, payload, signature, signatureEncoding, secretEncoding, publicKey⟩ := config
  have halgorithm : ConfigFields.variant "algorithm" SignatureAlgorithm.parse
      (.string algorithm.asStr) = .ok algorithm := variant_parsed algorithm.parse_asStr
  have hencoding : ConfigFields.variant "signature_encoding" SignatureEncoding.parse
      (.string signatureEncoding.asStr) = .ok signatureEncoding :=
    variant_parsed signatureEncoding.parse_asStr
  have hsecret : ConfigFields.variant "secret_encoding" SecretEncoding.parse
      (.string secretEncoding.asStr) = .ok secretEncoding :=
    variant_parsed secretEncoding.parse_asStr
  have hpayload : ConfigFields.expression "payload" (.string payload.source) = .ok payload :=
    expression_parsed (Expression.parse_source hp)
  have hsignature : ConfigFields.expression "signature" (.string signature.source) =
      .ok signature := expression_parsed (Expression.parse_source hs)
  rw [toJson_members]
  show (List.foldlM ConfigFields.read .empty _ >>= ConfigFields.finish) = _
  cases publicKey with
  | none =>
    simp only [Option.map_none, Option.toList_none, List.append_nil, List.cons_append,
      List.nil_append, List.foldlM_cons, List.foldlM_nil, ConfigFields.read, ConfigFields.first,
      ConfigFields.empty, halgorithm, hpayload, hsecret, hsignature, hencoding]
    rfl
  | some material =>
    simp only [Option.map_some, Option.toList_some, List.cons_append, List.nil_append,
      List.foldlM_cons, List.foldlM_nil, ConfigFields.read, ConfigFields.first,
      ConfigFields.empty, halgorithm, hpayload, hsecret, hsignature, hencoding]
    rfl

end SignatureConfig

/-- What was parsed is parsed again from the text it remembers, and every accepted configuration
is read back from its column as it was. -/
theorem stored_config_reloads :
    (∀ source e, Expression.parse source = .ok e → Expression.parse e.source = .ok e) ∧
      ∀ config : SignatureConfig, config.Accepted →
        SignatureConfig.fromJson config.toJson = .ok config :=
  ⟨fun _ _ => Expression.parse_source,
    fun _ h => SignatureConfig.fromJson_toJson h.parsed.1 h.parsed.2⟩

namespace PaddedSource

/-- White space of three kinds around a literal that ends in a space. -/
def source : String := "\t \"a \"\u2003\n"

def expression : Expression := ⟨"\"a \"", .literal "a "⟩

def signatureSource : String := "\n request.headers[ \"x-signature\" ]\t"

def signature : Expression := ⟨"request.headers[ \"x-signature\" ]", headerPath "x-signature"⟩

/-- Signatures by a key pair, over the literal. -/
def patch : SigningPatch := { SigningPatch.empty with
  algorithm := some .ed25519
  payload := some expression
  signature := some signature
  signatureEncoding := some .base64
  publicKey := some (some "302a300506032b6570032100") }

def config : SignatureConfig := (patch.resolve .default true).config

theorem padded_reloads : Expression.parse expression.source = .ok expression ∧
    SignatureConfig.fromJson config.toJson = .ok config := by
  have hpayload : Expression.parse source = .ok expression := by decide +kernel
  have hsignature : Expression.parse signatureSource = .ok signature := by decide +kernel
  have haccepted : config.Accepted := by
    refine .resolved patch .default true .default (fun e he => ?_) fun e he => ?_
    · obtain rfl := Option.mem_some.mp he
      exact ⟨source, hpayload⟩
    · obtain rfl := Option.mem_some.mp he
      exact ⟨signatureSource, hsignature⟩
  exact ⟨stored_config_reloads.1 source expression hpayload,
    stored_config_reloads.2 config haccepted⟩

end PaddedSource

end SiliconHook
