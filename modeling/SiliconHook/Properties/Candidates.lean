import SiliconHook.Domain.Verify

/-!
# Presented candidates

Which strings of a presented value a symmetric verification compares: its
tokens and what follows their labels, all of them while the tokens are few.
-/

namespace SiliconHook

open Encoding Text

-- -----------------------------------------------------------------------------
-- What a presented value offers
-- -----------------------------------------------------------------------------

def isDelimiter (c : Char) : Bool := isWhiteSpace c || c = ','

def isLabelChar (c : Char) : Bool := isAsciiAlphanumeric c || c = '_' || c = '-'

/-- The maximal runs without delimiters, in order. -/
def tokens (presented : String) : List (List Char) :=
  (splitBy isDelimiter presented.toList).filter fun token => !token.isEmpty

/-- A token offers itself, and what follows a short label. -/
inductive Offers (token : List Char) : List Char → Prop
  | whole : Offers token token
  | labelled (label rest : List Char) (split : token = label ++ '=' :: rest)
      (nonempty : rest ≠ []) (short : 1 ≤ label.length ∧ label.length ≤ 16)
      (plain : ∀ c ∈ label, isLabelChar c = true) : Offers token rest

def OfferedBy (presented : String) (candidate : List Char) : Prop :=
  ∃ token, IsRun isDelimiter presented.toList token ∧ Offers token candidate

variable {token candidate : List Char} {collected : List (List Char)}

-- -----------------------------------------------------------------------------
-- Labels
-- -----------------------------------------------------------------------------

/-- No label holds an equals sign, so the first one ends it. -/
theorem unlabelled_some {rest : List Char} : unlabelled token = some rest ↔
    ∃ label, token = label ++ '=' :: rest ∧ rest ≠ [] ∧ (1 ≤ label.length ∧ label.length ≤ 16) ∧
      ∀ c ∈ label, isLabelChar c = true := by
  simp only [unlabelled, Option.bind_eq_some_iff, Prod.exists]
  constructor
  · rintro ⟨label, after, hsplit, h⟩
    split at h
    · rename_i hlabel
      cases h
      simp only [Bool.and_eq_true, decide_eq_true_eq, List.all_eq_true, maxLabelLength,
        Bool.not_eq_true', List.isEmpty_eq_false_iff] at hlabel
      obtain ⟨⟨⟨hne, hpos⟩, hshort⟩, hplain⟩ := hlabel
      exact ⟨label, (splitOnce_some.mp hsplit).1, hne, ⟨hpos, of_decide_eq_true hshort⟩, hplain⟩
    · cases h
  · rintro ⟨label, rfl, hne, ⟨hpos, hshort⟩, hplain⟩
    have hnot : '=' ∉ label := fun hm => absurd (hplain _ hm) (by decide)
    refine ⟨label, rest, splitOnce_some.mpr ⟨rfl, hnot⟩, if_pos ?_⟩
    simp only [Bool.and_eq_true, decide_eq_true_eq, List.all_eq_true, maxLabelLength,
      Bool.not_eq_true', List.isEmpty_eq_false_iff]
    exact ⟨⟨⟨hne, hpos⟩, decide_eq_true hshort⟩, hplain⟩

theorem offers_iff : Offers token candidate ↔
    candidate = token ∨ unlabelled token = some candidate := by
  rw [unlabelled_some]
  constructor
  · rintro (_ | ⟨label, _, hsplit, hne, hshort, hplain⟩)
    · exact .inl rfl
    · exact .inr ⟨label, hsplit, hne, hshort, hplain⟩
  · rintro (rfl | ⟨label, hsplit, hne, hshort, hplain⟩)
    · exact .whole
    · exact .labelled label candidate hsplit hne hshort hplain

-- -----------------------------------------------------------------------------
-- Collecting candidates
-- -----------------------------------------------------------------------------

theorem addCandidates_nil : addCandidates collected [] = collected := by
  simp [addCandidates]

theorem addCandidates_cases (collected : List (List Char)) (hne : token ≠ []) :
    (maxSignatureCandidates ≤ collected.length ∧ addCandidates collected token = collected) ∨
    (collected.length < maxSignatureCandidates ∧
      (addCandidates collected token = collected ++ [token] ∧
        (unlabelled token = none ∨ maxSignatureCandidates ≤ collected.length + 1)) ∨
      collected.length + 1 < maxSignatureCandidates ∧ ∃ rest, unlabelled token = some rest ∧
        addCandidates collected token = collected ++ [token, rest]) := by
  have hempty : token.isEmpty = false := by simpa using hne
  unfold addCandidates
  by_cases hfull : maxSignatureCandidates ≤ collected.length
  · exact .inl ⟨hfull, by simp [hfull]⟩
  · refine .inr ?_
    rw [if_neg (by simp [hempty, hfull])]
    cases hu : unlabelled token with
    | none => exact .inl ⟨Nat.not_le.mp hfull, rfl, .inl rfl⟩
    | some rest =>
      simp only
      split
      · rename_i hroom
        exact .inr ⟨hroom, rest, rfl, rfl⟩
      · rename_i hroom
        exact .inl ⟨Nat.not_le.mp hfull, rfl, .inr (Nat.not_lt.mp hroom)⟩

theorem addCandidates_bound (h : collected.length ≤ maxSignatureCandidates) :
    (addCandidates collected token).length ≤ maxSignatureCandidates := by
  by_cases hne : token = []
  · subst hne
    rwa [addCandidates_nil]
  · obtain ⟨-, heq⟩ | ⟨hlt, heq, -⟩ | ⟨hlt, rest, -, heq⟩ :=
      addCandidates_cases collected hne
    · rwa [heq]
    · rw [heq, List.length_append]
      exact hlt
    · rw [heq, List.length_append]
      exact hlt

theorem addCandidates_sound (h : candidate ∈ addCandidates collected token) :
    candidate ∈ collected ∨ token ≠ [] ∧ Offers token candidate := by
  by_cases hne : token = []
  · subst hne
    rw [addCandidates_nil] at h
    exact .inl h
  · obtain ⟨-, heq⟩ | ⟨-, heq, -⟩ | ⟨-, rest, hu, heq⟩ :=
      addCandidates_cases collected hne
    · rw [heq] at h
      exact .inl h
    · rw [heq, List.mem_append, List.mem_singleton] at h
      exact h.imp_right fun he => ⟨hne, offers_iff.mpr (.inl he)⟩
    · rw [heq, List.mem_append, List.mem_pair] at h
      refine h.imp_right fun he => ⟨hne, offers_iff.mpr (he.imp_right fun he => ?_)⟩
      rw [he]
      exact hu

/-- Where there is room for two, a token adds all it offers and no more than two. -/
theorem addCandidates_complete {collected : List (List Char)} (hne : token ≠ [])
    (hroom : collected.length + 2 ≤ maxSignatureCandidates) :
    (∀ c ∈ collected, c ∈ addCandidates collected token) ∧
      (∀ c, Offers token c → c ∈ addCandidates collected token) ∧
      (addCandidates collected token).length ≤ collected.length + 2 := by
  obtain ⟨hfull, -⟩ | ⟨-, heq, hlabel⟩ | ⟨-, rest, hu, heq⟩ :=
    addCandidates_cases collected hne
  · exact absurd hfull (by omega)
  · have hnone : unlabelled token = none := hlabel.resolve_right (by omega)
    rw [heq]
    refine ⟨fun c hc => List.mem_append_left _ hc, fun c hc => ?_, by simp⟩
    obtain rfl | hu := offers_iff.mp hc
    · exact List.mem_append_right _ (List.mem_singleton_self _)
    · rw [hnone] at hu
      cases hu
  · rw [heq]
    refine ⟨fun c hc => List.mem_append_left _ hc, fun c hc => ?_, by simp⟩
    obtain rfl | hc := offers_iff.mp hc
    · exact List.mem_append_right _ (List.mem_cons_self ..)
    · rw [hu] at hc
      cases hc
      exact List.mem_append_right _ (List.mem_cons_of_mem _ (List.mem_singleton_self _))

theorem foldl_bound (pieces : List (List Char)) (h : collected.length ≤ maxSignatureCandidates) :
    (pieces.foldl addCandidates collected).length ≤ maxSignatureCandidates := by
  induction pieces generalizing collected with
  | nil => exact h
  | cons token rest ih => exact ih (addCandidates_bound h)

theorem foldl_sound {pieces : List (List Char)} (h : candidate ∈ pieces.foldl addCandidates collected) :
    candidate ∈ collected ∨ ∃ token ∈ pieces, token ≠ [] ∧ Offers token candidate := by
  induction pieces generalizing collected with
  | nil => exact .inl h
  | cons token rest ih =>
    obtain hmem | ⟨later, hm, hoffers⟩ := ih h
    · obtain hmem | hoffers := addCandidates_sound hmem
      · exact .inl hmem
      · exact .inr ⟨token, List.mem_cons_self .., hoffers⟩
    · exact .inr ⟨later, List.mem_cons_of_mem _ hm, hoffers⟩

theorem foldl_complete {pieces : List (List Char)}
    (hroom : collected.length + 2 * (pieces.filter fun token => !token.isEmpty).length ≤
      maxSignatureCandidates) :
    (∀ c ∈ collected, c ∈ pieces.foldl addCandidates collected) ∧
      ∀ token ∈ pieces, token ≠ [] → ∀ c, Offers token c →
        c ∈ pieces.foldl addCandidates collected := by
  induction pieces generalizing collected with
  | nil => exact ⟨fun _ hc => hc, fun _ hm => nomatch hm⟩
  | cons first rest ih =>
    by_cases hne : first = []
    · subst hne
      have hrest := ih (show collected.length + _ ≤ _ by simpa using hroom)
      rw [List.foldl_cons, addCandidates_nil]
      refine ⟨hrest.1, fun token hm hne => ?_⟩
      obtain rfl | hm := List.mem_cons.mp hm
      · exact absurd rfl hne
      · exact hrest.2 token hm hne
    · have hcount : ((first :: rest).filter fun token => !token.isEmpty).length =
          (rest.filter fun token => !token.isEmpty).length + 1 := by
        rw [List.filter_cons_of_pos (by simpa using hne), List.length_cons]
      rw [hcount] at hroom
      have hfirst : collected.length + 2 ≤ maxSignatureCandidates := by omega
      obtain ⟨hkeep, hadd, hlength⟩ := addCandidates_complete hne hfirst
      have hafter : (addCandidates collected first).length +
          2 * (rest.filter fun token => !token.isEmpty).length ≤ maxSignatureCandidates := by omega
      obtain ⟨hkept, hadded⟩ := ih hafter
      rw [List.foldl_cons]
      refine ⟨fun c hc => hkept c (hkeep c hc), fun token hm hne c hc => ?_⟩
      obtain rfl | hm := List.mem_cons.mp hm
      · exact hkept c (hadd c hc)
      · exact hadded token hm hne c hc

variable {presented : String}

theorem candidates_bound (presented : String) :
    (candidates presented).length ≤ maxSignatureCandidates :=
  foldl_bound _ (Nat.zero_le _)

theorem candidates_offered (h : candidate ∈ candidates presented) :
    OfferedBy presented candidate := by
  obtain h | ⟨token, hm, hne, hoffers⟩ := foldl_sound h
  · cases h
  · exact ⟨token, (mem_splitBy hne).mp hm, hoffers⟩

theorem candidates_of_few (hfew : (tokens presented).length ≤ 8) :
    candidate ∈ candidates presented ↔ OfferedBy presented candidate := by
  refine ⟨candidates_offered, fun ⟨token, hrun, hoffers⟩ => ?_⟩
  have hroom : 0 + 2 * ((splitBy isDelimiter presented.toList).filter
      fun token => !token.isEmpty).length ≤ maxSignatureCandidates := by
    have hlength : ((splitBy isDelimiter presented.toList).filter
      fun token => !token.isEmpty).length ≤ 8 := hfew
    simp only [maxSignatureCandidates]
    omega
  have hall := foldl_complete (show ([] : List (List Char)).length + _ ≤ _ from hroom)
  exact hall.2 token (mem_of_isRun hrun) hrun.nonempty
    candidate hoffers

-- -----------------------------------------------------------------------------
-- Verification
-- -----------------------------------------------------------------------------

section

variable {reader : KeyReader}

structure Evaluates (lib : ExpressionLibrary) (config : SignatureConfig) (context : EvalContext)
    (payload : List UInt8) (signature : Value) : Prop where
  payload : ∃ value, evaluate lib context config.payload.parsed = .ok value ∧
    value.intoBytes = .ok payload
  signature : evaluate lib context config.signature.parsed = .ok signature

variable {lib : ExpressionLibrary} {keys : KeyLibrary reader} {config : SignatureConfig}
  {request : CapturedRequest} {hook : HookContext} {material : VerificationMaterial}
  {payload : List UInt8} {signature : Value}

theorem Evaluates.signedPayload {context : EvalContext}
    (h : Evaluates lib config context payload signature) :
    signedPayload lib config context = .ok payload := by
  obtain ⟨value, hvalue, hbytes⟩ := h.payload
  simp [SiliconHook.signedPayload, hvalue, hbytes, Except.mapError, coerce, bind, Except.bind]

theorem verify_verified {presented : List (List UInt8)} {secret : List UInt8}
    (hsymmetric : config.algorithm.usesSecret = true) (hsecret : material.secret = some secret)
    (h : Evaluates lib config (verificationContext request hook material) payload signature)
    (hpresented : presentedCandidates lib config (verificationContext request hook material) =
      .ok presented) :
    verify lib keys config request hook material = .verified ↔
      ∃ tag, symmetricSignature lib secret payload config.algorithm = some tag ∧
        tag ∈ presented := by
  obtain ⟨tag, htag⟩ := Option.isSome_iff_exists.mp
    (symmetricSignature_isSome lib hsymmetric secret payload)
  have hmatches : matchesAny lib keys config material payload presented =
      .ok (presented.contains tag) := by
    simp [matchesAny, hsymmetric, hsecret, htag]
  have hresult : verificationResult lib keys config request hook material =
      .ok (presented.contains tag) := by
    simp only [verificationResult, h.signedPayload, hpresented]
    exact hmatches
  rw [verify, hresult, htag]
  cases hc : presented.contains tag with
  | true => simpa using hc
  | false => simpa using hc

theorem textCandidates_ok {encoding : SignatureEncoding} {text : String}
    (ht : signature.intoText = .ok text) (hblank : ∃ c ∈ text.toList, isWhiteSpace c = false)
    (hsize : text.utf8ByteSize ≤ maxPresentedSignatureBytes) :
    textCandidates encoding signature =
      .ok ((candidates text).filterMap fun candidate => decodeCandidate candidate encoding) := by
  obtain ⟨c, hc, hp⟩ := hblank
  have htrim : (trim text).isEmpty = false := by
    simp [trim, trimBy_ne_nil hc hp]
  simp [textCandidates, ht, Except.mapError, ensure, hsize, htrim, bind, Except.bind, pure,
    Except.pure]

theorem rawCandidate_ok {bytes : List UInt8} (hb : signature.intoBytes = .ok bytes)
    (hne : bytes ≠ []) (hsize : bytes.length ≤ maxPresentedSignatureBytes) :
    rawCandidate signature = .ok [bytes] := by
  simp [rawCandidate, hb, Except.mapError, ensure, hsize, hne, bind, Except.bind, pure,
    Except.pure]

theorem presentedCandidates_eq {context : EvalContext}
    (h : Evaluates lib config context payload signature) (hnull : signature.isNull = false) :
    presentedCandidates lib config context =
      if config.signatureEncoding = .raw then rawCandidate signature
      else textCandidates config.signatureEncoding signature := by
  simp [presentedCandidates, h.signature, Except.mapError, ensure, hnull, bind, Except.bind]

/-- A symmetric signature is found among what the tokens of a text offer, all of
it while the tokens are at most eight, and never among more than sixteen
strings; a raw one is the whole value. -/
theorem symmetric_candidates (lib : ExpressionLibrary) (keys : KeyLibrary reader)
    (config : SignatureConfig) (request : CapturedRequest) (hook : HookContext)
    (material : VerificationMaterial) (secret payload : List UInt8) (signature : Value)
    (hsymmetric : config.algorithm.usesSecret = true) (hsecret : material.secret = some secret)
    (h : Evaluates lib config (verificationContext request hook material) payload signature) :
    (config.signatureEncoding ≠ .raw → ∀ text, signature.intoText = .ok text →
      (∃ c ∈ text.toList, isWhiteSpace c = false) → text.utf8ByteSize ≤ 8 * 1024 →
      (verify lib keys config request hook material = .verified →
        ∃ candidate, OfferedBy text candidate ∧
          ∃ tag, symmetricSignature lib secret payload config.algorithm = some tag ∧
            decodeCandidate candidate config.signatureEncoding = some tag) ∧
      ((tokens text).length ≤ 8 →
        (verify lib keys config request hook material = .verified ↔
          ∃ candidate, OfferedBy text candidate ∧
            ∃ tag, symmetricSignature lib secret payload config.algorithm = some tag ∧
              decodeCandidate candidate config.signatureEncoding = some tag)) ∧
      (candidates text).length ≤ 16) ∧
    (config.signatureEncoding = .raw → ∀ bytes, signature.intoBytes = .ok bytes → bytes ≠ [] →
      bytes.length ≤ 8 * 1024 →
      (verify lib keys config request hook material = .verified ↔
        symmetricSignature lib secret payload config.algorithm = some bytes)) := by
  constructor
  · intro hencoding text htext hblank hsize
    have hnull : signature.isNull = false := by
      cases signature <;> first | rfl | cases htext
    have hpresented := (presentedCandidates_eq h hnull).trans
      ((if_neg hencoding).trans (textCandidates_ok htext hblank hsize))
    have hverified : verify lib keys config request hook material = .verified ↔
        ∃ candidate ∈ candidates text,
          ∃ tag, symmetricSignature lib secret payload config.algorithm = some tag ∧
            decodeCandidate candidate config.signatureEncoding = some tag := by
      rw [verify_verified hsymmetric hsecret h hpresented]
      constructor
      · rintro ⟨tag, htag, hm⟩
        obtain ⟨candidate, hc, hd⟩ := List.mem_filterMap.mp hm
        exact ⟨candidate, hc, tag, htag, hd⟩
      · rintro ⟨candidate, hc, tag, htag, hd⟩
        exact ⟨tag, htag, List.mem_filterMap.mpr ⟨candidate, hc, hd⟩⟩
    refine ⟨fun hv => ?_, fun hfew => ?_, candidates_bound text⟩
    · obtain ⟨candidate, hc, hd⟩ := hverified.mp hv
      exact ⟨candidate, candidates_offered hc, hd⟩
    · rw [hverified]
      exact exists_congr fun candidate => and_congr_left' (candidates_of_few hfew)
  · intro hencoding bytes hbytes hne hsize
    have hnull : signature.isNull = false := by
      cases signature <;> first | rfl | cases hbytes
    have hpresented := (presentedCandidates_eq h hnull).trans
      ((if_pos hencoding).trans (rawCandidate_ok hbytes hne hsize))
    rw [verify_verified hsymmetric hsecret h hpresented]
    constructor
    · rintro ⟨tag, htag, hm⟩
      rw [List.mem_singleton.mp hm] at htag
      exact htag
    · intro htag
      exact ⟨bytes, htag, List.mem_singleton_self _⟩

end

namespace LabelledSignature

/-- A tag is the key followed by the message; nothing else is evaluated. -/
def library : ExpressionLibrary where
  parseUrl := fun _ => none
  scheme := id
  hostStr := fun _ => none
  port := fun _ => none
  portOrKnownDefault := fun _ => none
  path := id
  query := fun _ => none
  queryPairs := fun _ => []
  withQuery := fun _ url => url
  withoutFragment := id
  parseForm := fun _ => []
  parseJson := fun _ => none
  parseMultipart := fun _ _ => none
  lowercase := id
  uppercase := id
  digest := fun _ bytes => bytes
  hmac := fun _ key message => key ++ message

def reader : KeyReader := fun _ _ => .error .malformed

def keys : KeyLibrary reader := ⟨fun _ _ => .ok [], fun _ _ _ _ => false, fun _ _ _ => ⟨[], rfl⟩⟩

def config : SignatureConfig :=
  ⟨.hmacSha256, ⟨"\"b\"", .literal "b"⟩, ⟨"\"t=1,v1=6162\"", .literal "t=1,v1=6162"⟩, .hex, .utf8,
    none⟩

def request : CapturedRequest := ⟨"POST", "/", [], [], "192.0.2.1", 0⟩

/-- The second token's label is taken off, and the rest is the tag. -/
theorem labelled_verified :
    verify library keys config request ⟨"", ""⟩ ⟨some [0x61], none, none⟩ = .verified ↔
      ∃ candidate, OfferedBy "t=1,v1=6162" candidate ∧
        ∃ tag, symmetricSignature library [0x61] [0x62] .hmacSha256 = some tag ∧
          decodeCandidate candidate .hex = some tag :=
  ((symmetric_candidates library keys config request ⟨"", ""⟩ ⟨some [0x61], none, none⟩ [0x61] [0x62]
    (.text "t=1,v1=6162") rfl rfl ⟨⟨.text "b", rfl, by decide⟩, rfl⟩).1 (by decide) "t=1,v1=6162"
      rfl ⟨'t', by decide, by decide⟩ (by decide)).2.1 (by decide)

example : verify library keys config request ⟨"", ""⟩ ⟨some [0x61], none, none⟩ = .verified := by
  decide +kernel

end LabelledSignature

end SiliconHook
