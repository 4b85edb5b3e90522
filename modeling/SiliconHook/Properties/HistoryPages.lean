import SiliconHook.Application.History
import SiliconHook.Properties.JsonOrder
import SiliconHook.Properties.PolicyUpdates
import SiliconHook.Properties.Rendering

/-!
# Pages of history

Listing a history and following its cursors yields every retained row once,
newest first; a cursor of another listing is refused.
-/

namespace SiliconHook

open Encoding Text

-- -----------------------------------------------------------------------------
-- Cursors
-- -----------------------------------------------------------------------------

theorem readDigits_toDigits (n : Nat) : readDigits (Nat.toDigits 10 n) = some n := by
  have hdigits : ∀ c ∈ Nat.toDigits 10 n, isAsciiDigit c = true := fun c hc =>
    isAsciiDigit_digit (Nat.isDigit_of_mem_toDigits (by decide) (by decide) hc)
  have hsome : (Nat.toDigits 10 n).isEmpty = false := by simp [Nat.toDigits_ne_nil]
  rw [readDigits, hsome, List.all_eq_true.mpr hdigits, decimal_toDigits]
  rfl

theorem asInt_nat (n : Nat) : JsonValue.asInt (.number (toString n)) = some (n : Int) := by
  have hchars : (toString n).toList = Nat.toDigits 10 n := by simp
  unfold JsonValue.asInt
  dsimp only
  rw [hchars]
  split
  · rename_i digits hminus
    have hm : '-' ∈ Nat.toDigits 10 n := hminus ▸ List.mem_cons_self
    exact absurd (Nat.isDigit_of_mem_toDigits (by decide) (by decide) hm) (by decide)
  · rw [readDigits_toDigits]
    rfl

theorem asInt_toString (n : Int) : JsonValue.asInt (.number (toString n)) = some n := by
  cases n with
  | ofNat m => exact asInt_nat m
  | negSucc m =>
    have hchars : (toString (Int.negSucc m)).toList = '-' :: Nat.toDigits 10 (m + 1) := by
      show ("-" ++ toString (m + 1)).toList = _
      simp
    unfold JsonValue.asInt
    dsimp only
    rw [hchars]
    show (readDigits (Nat.toDigits 10 (m + 1))).map _ = _
    rw [readDigits_toDigits]
    rfl

theorem accountUuid_fromJson (uuid : AccountUuid) :
    AccountUuid.fromJson (.string uuid.value) = some uuid := by
  show (AccountUuid.new uuid.value).toOption = _
  rw [AccountUuid.new_value]
  rfl

namespace CursorCodec

variable {codec : CursorCodec} {scope expected : HistoryCursorScope} {cursor : HistoryCursor}

theorem filter_fromJson (h : codec.ReadsIssued) (filter : HistoryFilter) :
    HistoryFilter.fromJson codec.parseUuid filter.toJson = some filter := by
  obtain ⟨_ | hookId⟩ := filter
  · rfl
  · show (codec.parseUuid hookId.uuid.hyphenated).map _ = _
    rw [h.uuids]
    rfl

theorem scope_fromJson (h : codec.ReadsIssued) (scope : HistoryCursorScope) :
    HistoryCursorScope.fromJson codec.parseUuid scope.toJson = some scope := by
  obtain ⟨silicon, collection, filter⟩ := scope
  have hcollection : HistoryCollection.fromJson (.string collection.asStr) = some collection := by
    cases collection <;> rfl
  show (AccountUuid.fromJson (.string silicon.value)).bind (fun _ => Option.bind
    (HistoryCollection.fromJson (.string collection.asStr)) fun _ => Option.bind
      (HistoryFilter.fromJson codec.parseUuid filter.toJson) fun _ => _) = _
  rw [accountUuid_fromJson, hcollection, filter_fromJson h]
  rfl

theorem claims_fromJson (h : codec.ReadsIssued) {claims : CursorClaims}
    (hversion : claims.version < 256)
    (hnanos : -2 ^ 127 ≤ claims.receivedAtUnixNanos ∧ claims.receivedAtUnixNanos < 2 ^ 127) :
    CursorClaims.fromJson codec.parseUuid claims.toJson = some claims := by
  obtain ⟨version, scope, nanos, id⟩ := claims
  have hbound : 0 ≤ (version : Int) ∧ (version : Int) < 256 := by
    dsimp only at hversion
    omega
  show (JsonValue.asInt (.number (toString version))).bind (fun _ => Option.bind (guard _)
    fun _ => Option.bind (HistoryCursorScope.fromJson codec.parseUuid scope.toJson) fun _ =>
      Option.bind (JsonValue.asInt (.number (toString nanos))) fun _ => Option.bind (guard _)
        fun _ => Option.bind (codec.parseUuid id.hyphenated) fun _ => _) = _
  rw [asInt_nat, scope_fromJson h, asInt_toString, h.uuids]
  simp only [Option.bind_some]
  rw [guard, if_pos hbound, guard, if_pos hnanos]
  rfl

-- -----------------------------------------------------------------------------
-- The size of a cursor
-- -----------------------------------------------------------------------------

theorem quote_size {text : String} (h : ∀ c ∈ text.toList, isAsciiGraphic c = true) :
    (Json.quote text).utf8ByteSize ≤ 2 * text.toList.length + 2 := by
  have hescape : ∀ c, isAsciiGraphic c = true →
      (Json.escape c).length ≤ 2 ∧ ∀ d ∈ Json.escape c, isAscii d = true := by
    intro c hc
    have hascii := isAsciiGraphic_ascii hc
    simp only [isAsciiGraphic, Bool.and_eq_true, decide_eq_true_eq] at hc
    unfold Json.escape
    split
    · exact ⟨Nat.le_refl 2, by simp [isAscii]⟩
    · split
      · exact ⟨Nat.le_refl 2, by simp [isAscii]⟩
      · rw [if_neg (by omega), if_neg (by omega), if_neg (by omega), if_neg (by omega),
          if_neg (by omega), if_neg (by omega)]
        exact ⟨by simp, by simpa using hascii⟩
  have hbody : ∀ chars : List Char, (∀ c ∈ chars, isAsciiGraphic c = true) →
      (chars.flatMap Json.escape).length ≤ 2 * chars.length ∧
        ∀ d ∈ chars.flatMap Json.escape, isAscii d = true := by
    intro chars
    induction chars with
    | nil => simp
    | cons c rest ih =>
      intro hchars
      obtain ⟨hlength, hascii⟩ := hescape c (hchars c List.mem_cons_self)
      obtain ⟨hlength', hascii'⟩ := ih fun d hd => hchars d (List.mem_cons_of_mem _ hd)
      rw [List.flatMap_cons, List.length_append, List.length_cons]
      refine ⟨by omega, fun d hd => ?_⟩
      rcases List.mem_append.mp hd with hd | hd
      · exact hascii d hd
      · exact hascii' d hd
  obtain ⟨hlength, hascii⟩ := hbody text.toList h
  have hquote : isAscii '"' = true := by decide
  rw [Json.quote, utf8ByteSize_ascii]
  · simp only [List.length_append, List.length_cons, List.length_nil]
    omega
  · intro d hd
    simp only [List.mem_append, List.mem_cons, List.not_mem_nil, or_false] at hd
    rcases hd with (rfl | hd) | rfl
    · exact hquote
    · exact hascii d hd
    · exact hquote

theorem hyphenated_size (uuid : Uuid) : (Json.quote uuid.hyphenated).utf8ByteSize ≤ 74 := by
  have hlength : (hexEncode uuid.asBytes).length = 32 := by
    rw [length_hexEncode, Uuid.asBytes, List.length_map, List.length_range]
  have hgraphic := hexEncode_graphic uuid.asBytes
  have hchars : uuid.hyphenated.toList.length = 36 ∧
      ∀ c ∈ uuid.hyphenated.toList, isAsciiGraphic c = true := by
    have hhyphen : isAsciiGraphic '-' = true := by decide
    rw [Uuid.hyphenated, String.toList_ofList]
    constructor
    · simp [hlength]
    · intro c hc
      simp only [List.mem_append, List.mem_cons] at hc
      rcases hc with ((((hc | rfl | hc) | rfl | hc) | rfl | hc) | rfl | hc)
      · exact hgraphic c (List.mem_of_mem_take hc)
      · exact hhyphen
      · exact hgraphic c (List.mem_of_mem_drop (List.mem_of_mem_take hc))
      · exact hhyphen
      · exact hgraphic c (List.mem_of_mem_drop (List.mem_of_mem_take hc))
      · exact hhyphen
      · exact hgraphic c (List.mem_of_mem_drop (List.mem_of_mem_take hc))
      · exact hhyphen
      · exact hgraphic c (List.mem_of_mem_drop hc)
  have hquote := quote_size hchars.2
  omega

theorem siliconUuid_size (uuid : AccountUuid) : (Json.quote uuid.value).utf8ByteSize ≤ 130 := by
  have hexternal := uuid.isExternalId
  simp only [isExternalId, Bool.and_eq_true, List.all_eq_true] at hexternal
  have hgraphic := hexternal.2
  have hsize : uuid.value.utf8ByteSize ≤ 64 := by
    have hvalid := uuid.valid
    simp only [AccountUuid.looksLike, Bool.or_eq_true, Bool.and_eq_true, decide_eq_true_eq,
      beq_iff_eq] at hvalid
    rcases hvalid with ⟨⟨-, hl⟩, -⟩ | ⟨hl, -⟩
    · exact hl
    · omega
  have hlength : uuid.value.utf8ByteSize = uuid.value.toList.length := by
    have hascii := utf8ByteSize_ascii fun c hc => isAsciiGraphic_ascii (hgraphic c hc)
    rwa [String.ofList_toList] at hascii
  have hquote := quote_size hgraphic
  omega

theorem number_size {n : Int} (h : -10 ^ 22 < n ∧ n < 10 ^ 22) :
    (toString n).utf8ByteSize ≤ 23 := by
  have hnat : ∀ m < 10 ^ 22, (toString m).utf8ByteSize ≤ 22 := by
    intro m hm
    have hascii : ∀ c ∈ Nat.toDigits 10 m, isAscii c = true := by
      intro c hc
      have hdigit := isAsciiDigit_digit (Nat.isDigit_of_mem_toDigits (by decide) (by decide) hc)
      simp only [isAsciiDigit, isAscii, Bool.and_eq_true, decide_eq_true_eq] at hdigit ⊢
      omega
    have htext : toString m = String.ofList (Nat.toDigits 10 m) := by
      rw [← String.toList_inj]
      simp
    rw [htext, utf8ByteSize_ascii hascii]
    exact (Nat.length_toDigits_le_iff (by decide) (by decide)).mpr hm
  cases n with
  | ofNat m =>
    have hm : m < 10 ^ 22 := by
      have hlt := h.2
      rw [Int.ofNat_eq_natCast] at hlt
      omega
    exact (hnat m hm).trans (by decide)
  | negSucc m =>
    have hm : m + 1 < 10 ^ 22 := by
      have hlt := h.1
      rw [Int.negSucc_eq] at hlt
      omega
    show ("-" ++ toString (m + 1)).utf8ByteSize ≤ 23
    have hminus : "-".utf8ByteSize = 1 := by decide
    have hsize := hnat (m + 1) hm
    rw [String.utf8ByteSize_append, hminus]
    omega

theorem claims_size {claims : CursorClaims} (hversion : claims.version = cursorVersion)
    (hnanos : -10 ^ 22 < claims.receivedAtUnixNanos ∧ claims.receivedAtUnixNanos < 10 ^ 22) :
    (utf8 claims.toJson.render).length ≤ 480 := by
  obtain ⟨version, scope, nanos, id⟩ := claims
  subst hversion
  obtain ⟨silicon, collection, ⟨hookId⟩⟩ := scope
  have hcollection : (Json.quote collection.asStr).utf8ByteSize ≤ 18 := by
    cases collection <;> decide
  have hhook : (((hookId.map fun id => JsonValue.string id.uuid.hyphenated).getD
      .null).render).utf8ByteSize ≤ 74 := by
    cases hookId with
    | none => decide
    | some hookId => exact hyphenated_size hookId.uuid
  have hsilicon := siliconUuid_size silicon
  have hid := hyphenated_size id
  have hnumber : (toString nanos).utf8ByteSize ≤ 23 := number_size hnanos
  have hmarks : "\x7b".utf8ByteSize = 1 ∧ "\x7d".utf8ByteSize = 1 ∧ ",".utf8ByteSize = 1 ∧
      ":".utf8ByteSize = 1 ∧ (toString cursorVersion).utf8ByteSize = 1 := by decide
  have hnames : (Json.quote "version").utf8ByteSize = 9 ∧ (Json.quote "scope").utf8ByteSize = 7 ∧
      (Json.quote "silicon").utf8ByteSize = 9 ∧ (Json.quote "collection").utf8ByteSize = 12 ∧
      (Json.quote "filter").utf8ByteSize = 8 ∧ (Json.quote "hook_id").utf8ByteSize = 9 ∧
      (Json.quote "received_at_unix_nanos").utf8ByteSize = 24 ∧
      (Json.quote "id").utf8ByteSize = 4 := by decide
  have hone : ∀ a : String, ",".intercalate [a] = a := fun _ => rfl
  have hthree : ∀ a b c : String, ",".intercalate [a, b, c] = a ++ "," ++ b ++ "," ++ c :=
    fun _ _ _ => rfl
  have hfour : ∀ a b c d : String,
      ",".intercalate [a, b, c, d] = a ++ "," ++ b ++ "," ++ c ++ "," ++ d := fun _ _ _ _ => rfl
  rw [length_utf8]
  simp only [CursorClaims.toJson, HistoryCursorScope.toJson, HistoryFilter.toJson,
    JsonValue.render, JsonValue.renderMembers, hone, hthree, hfour, String.utf8ByteSize_append]
  omega

-- -----------------------------------------------------------------------------
-- The round trip
-- -----------------------------------------------------------------------------

theorem base64Encode_noPad (bytes : List UInt8) : '=' ∉ base64Encode .urlSafe false bytes := by
  have hne : ∀ n < 64, '=' ≠ sextetChar .urlSafe n := fun n hn =>
    (sextetChar_ne_pad .urlSafe hn).symm
  generalize hpadded : false = padded
  generalize halphabet : Alphabet.urlSafe = alphabet at hne ⊢
  fun_induction base64Encode alphabet padded bytes with
  | case1 => exact List.not_mem_nil
  | case2 a =>
    have ha := a.toNat_lt
    subst hpadded
    simp [hne (a.toNat / 4) (by omega), hne (a.toNat % 4 * 16) (by omega)]
  | case3 a b =>
    have ha := a.toNat_lt
    have hb := b.toNat_lt
    subst hpadded
    simp [hne (a.toNat / 4) (by omega), hne (a.toNat % 4 * 16 + b.toNat / 16) (by omega),
      hne (b.toNat % 16 * 4) (by omega)]
  | case4 a b c rest ih =>
    have ha := a.toNat_lt
    have hb := b.toNat_lt
    have hc := c.toNat_lt
    simp [hne (a.toNat / 4) (by omega), hne (a.toNat % 4 * 16 + b.toNat / 16) (by omega),
      hne (b.toNat % 16 * 4 + c.toNat / 64) (by omega), hne (c.toNat % 64) (by omega), ih]

def issuedClaims (scope : HistoryCursorScope) (cursor : HistoryCursor) : CursorClaims where
  version := cursorVersion
  scope := scope
  receivedAtUnixNanos := cursor.receivedAt.unixTimestampNanos
  id := cursor.id

theorem representable_nanos {t : Instant} (ht : t.representable = true) :
    -10 ^ 22 < t.unixTimestampNanos ∧ t.unixTimestampNanos < 10 ^ 22 ∧
      Instant.fromUnixTimestampNanos t.unixTimestampNanos = some t := by
  have hrange : offsetDateTimeMin * Instant.second ≤ t ∧ t < offsetDateTimeEnd * Instant.second :=
    of_decide_eq_true ht
  unfold offsetDateTimeMin offsetDateTimeEnd Instant.second Instant at *
  have hmicros : t * 1000 / 1000 = t := Int.mul_ediv_cancel t (by decide)
  unfold Instant.unixTimestampNanos Instant.fromUnixTimestampNanos
  rw [hmicros, if_pos ht]
  exact ⟨by omega, by omega, rfl⟩

/-- A cursor issued under a scope is read under it, and refused under another. -/
theorem decode_encode (h : codec.ReadsIssued) (ht : cursor.receivedAt.representable = true) :
    codec.decode expected (codec.encode scope cursor) =
      if scope = expected then .ok cursor else .error .scopeMismatch := by
  obtain ⟨hmin, hmax, htime⟩ := representable_nanos ht
  let claims := issuedClaims scope cursor
  let payload := utf8 claims.toJson.render
  let authenticated := payload ++ codec.authenticate payload
  have hversion : claims.version = cursorVersion := rfl
  have hclaimed : claims.scope = scope := rfl
  have hnanos : claims.receivedAtUnixNanos = cursor.receivedAt.unixTimestampNanos := rfl
  have hpayload : payload.length ≤ 480 := claims_size rfl ⟨hmin, hmax⟩
  have htag := codec.tag_length payload
  have hlength : authenticated.length = payload.length + hmacTagBytes := by
    rw [List.length_append, htag]
  have hsome : payload.length ≠ 0 := by
    rw [ne_eq, List.length_eq_zero_iff]
    refine utf8_ne_nil fun hempty => ?_
    have hchars := congrArg String.toList hempty
    simp [claims, CursorClaims.toJson, JsonValue.render] at hchars
  have htext : codec.encode scope cursor =
      String.ofList (base64Encode .urlSafe false authenticated) := rfl
  have hsize : (String.ofList (base64Encode .urlSafe false authenticated)).utf8ByteSize ≤
      maxCursorBytes := by
    rw [utf8ByteSize_ascii fun c hc => isAsciiGraphic_ascii (base64Encode_graphic _ _ _ c hc)]
    have hle := length_base64Encode_le .urlSafe false authenticated
    unfold maxCursorBytes
    unfold hmacTagBytes at hlength
    omega
  have hdecoded := base64Decode_base64Encode .urlSafe false authenticated
  have hnonempty : (String.ofList (base64Encode .urlSafe false authenticated)).isEmpty = false := by
    rw [← Bool.not_eq_true, String.isEmpty_iff]
    intro hempty
    have hnil : base64Encode .urlSafe false authenticated = [] := by
      rw [← String.toList_ofList (l := base64Encode .urlSafe false authenticated), hempty]
      rfl
    rw [hnil] at hdecoded
    have hnone : ([] : List UInt8) = authenticated := Option.some.inj hdecoded
    rw [← hnone, List.length_nil] at hlength
    omega
  have hclaims : (codec.fromSlice payload).bind (CursorClaims.fromJson codec.parseUuid) =
      some claims := by
    rw [h.documents, Option.bind_some]
    exact claims_fromJson h (by rw [hversion]; decide) (by rw [hnanos]; omega)
  have hpad := base64Encode_noPad authenticated
  have hpayloadLength : authenticated.length - hmacTagBytes = payload.length := by omega
  have htake : authenticated.take payload.length = payload := List.take_left
  have hdrop : authenticated.drop payload.length = codec.authenticate payload := List.drop_left
  rw [htext, decode, if_neg (Nat.not_lt.mpr hsize), hnonempty, String.toList_ofList, hdecoded,
    Bool.false_or, if_neg (by simpa using hpad)]
  dsimp only
  rw [if_neg (by omega), hpayloadLength, htake, hdrop, if_neg (not_not.mpr rfl), hclaims]
  dsimp only
  rw [hversion, if_neg (not_not.mpr rfl), hclaimed, hnanos, htime]
  by_cases hscope : scope = expected
  · rw [if_neg (not_not.mpr hscope), if_pos hscope]
    rfl
  · rw [if_pos hscope, if_neg hscope]

end CursorCodec

-- -----------------------------------------------------------------------------
-- One page
-- -----------------------------------------------------------------------------

/-- The second row is older than the first: it comes later in a listing. -/
def LogColumns.Newer (columns : LogColumns α ρ) (a b : α) : Prop :=
  (columns.boundary b).before (columns.boundary a) = true

def LogColumns.Reads (columns : LogColumns α ρ) : List α → List ρ → Prop :=
  List.Forall₂ fun row item => columns.record row = .ok item

/-- The rows a history still holds: unexpired rows of the Silicon's readable hooks. -/
def LogColumns.retained (columns : LogColumns α ρ) (siliconUuid : AccountUuid)
    (filter : HistoryFilter) (now : Instant) (hooks : Table HookRow) (rows : List α) : List α :=
  rows.filter fun row =>
    (hooks.find (columns.hookId row)).any (historyHook siliconUuid now) &&
      filter.hookId.all (fun hookId => columns.hookId row = hookId) &&
      decide (now < columns.expiresAt row)

theorem HistoryCursor.before_irrefl (a : HistoryCursor) : a.before a = false := by
  simp [before]

theorem HistoryCursor.before_asymm {a b : HistoryCursor} (h : a.before b = true) :
    b.before a = false := by
  simp only [before, decide_eq_true_eq, decide_eq_false_iff_not, BitVec.lt_def] at h ⊢
  unfold Instant at h ⊢
  omega

theorem HistoryCursor.before_antisymm {a b : HistoryCursor} (hab : a.before b = false)
    (hba : b.before a = false) : a = b := by
  obtain ⟨atTime, atId⟩ := a
  obtain ⟨otherTime, otherId⟩ := b
  simp only [before, decide_eq_false_iff_not, BitVec.lt_def, not_or, not_and] at hab hba
  rw [HistoryCursor.mk.injEq, BitVec.toNat_eq]
  unfold Instant at *
  have htime : atTime = otherTime := by omega
  exact ⟨htime, by have h1 := hab.2 htime; have h2 := hba.2 htime.symm; omega⟩

section

variable {α ρ : Type} {columns : LogColumns α ρ} {size : CapturedRequest → Nat}
  {done rest rows : List α} {hooks : Table HookRow}

/-- A page takes the first rows that fit, at least one, and carries the boundary
of the last where rows remain. -/
theorem collectPage_ok {limit : Nat} (size : CapturedRequest → Nat)
    (hrecords : ∀ row ∈ rows, ∃ item, columns.record row = .ok item) :
    ∀ (items : List ρ) (bytes : Nat) (boundary : Option HistoryCursor), items.length ≤ limit →
      ∃ taken rest read, rows = taken ++ rest ∧
        collectPage columns size limit items bytes boundary rows =
          .ok ⟨items ++ read, if rest.isEmpty then none
            else (taken.getLast?.map columns.boundary).or boundary⟩ ∧
        columns.Reads taken read ∧ items.length + taken.length ≤ limit ∧
        (items = [] → limit ≠ 0 → rows ≠ [] → taken ≠ []) := by
  induction rows with
  | nil =>
    intro items bytes boundary hroom
    refine ⟨[], [], [], rfl, ?_, .nil, by simpa using hroom, fun _ _ hrows => absurd rfl hrows⟩
    rw [List.append_nil]
    rfl
  | cons row rows ih =>
    intro items bytes boundary hroom
    obtain ⟨item, hitem⟩ := hrecords row List.mem_cons_self
    -- The page ends before this row.
    have hend : (items = [] → limit = 0) →
        collectPage columns size limit items bytes boundary (row :: rows) = .ok ⟨items, boundary⟩ →
        ∃ taken rest read, row :: rows = taken ++ rest ∧
          collectPage columns size limit items bytes boundary (row :: rows) =
            .ok ⟨items ++ read, if rest.isEmpty then none
              else (taken.getLast?.map columns.boundary).or boundary⟩ ∧
          columns.Reads taken read ∧ items.length + taken.length ≤ limit ∧
          (items = [] → limit ≠ 0 → row :: rows ≠ [] → taken ≠ []) := by
      intro hfull hpage
      refine ⟨[], row :: rows, [], rfl, ?_, .nil, by simpa using hroom,
        fun hempty hlimit => absurd (hfull hempty) hlimit⟩
      rw [hpage, List.append_nil]
      rfl
    by_cases hlength : items.length = limit
    · refine hend (fun hempty => ?_) ?_
      · rw [← hlength, hempty, List.length_nil]
      · rw [collectPage, if_pos hlength]
    by_cases hbytes : items ≠ [] ∧ historyPageByteBudget < bytes + size (columns.request row)
    · refine hend (fun hempty => absurd hempty hbytes.1) ?_
      rw [collectPage, if_neg hlength, if_pos hbytes]
    obtain ⟨taken, rest, read, hrows, hpage, hread, hfit, -⟩ :=
      ih (fun other hother => hrecords other (List.mem_cons_of_mem _ hother)) (items ++ [item])
        (bytes + size (columns.request row)) (some (columns.boundary row)) (by
          rw [List.length_append, List.length_singleton]
          omega)
    rw [List.length_append, List.length_singleton] at hfit
    refine ⟨row :: taken, rest, item :: read, by rw [hrows, List.cons_append], ?_,
      .cons hitem hread, by rw [List.length_cons]; omega, fun _ _ _ => List.cons_ne_nil _ _⟩
    rw [collectPage, if_neg hlength, if_neg hbytes, hitem]
    dsimp only
    rw [hpage, List.append_assoc, List.singleton_append, List.getLast?_cons]
    cases taken.getLast? <;> rfl

theorem filter_remaining (hsorted : (done ++ rest).Pairwise columns.Newer) :
    (done ++ rest).filter (fun row =>
      (done.getLast?.map columns.boundary).all (columns.boundary row).before) = rest := by
  obtain ⟨hdone, -, hacross⟩ := List.pairwise_append.mp hsorted
  rcases List.eq_nil_or_concat done with rfl | ⟨init, last, rfl⟩
  · simp
  · rw [List.concat_eq_append] at hdone hacross ⊢
    have hinit := (List.pairwise_append.mp hdone).2.2
    rw [List.filter_append, List.getLast?_concat, List.filter_eq_nil_iff.mpr,
      List.filter_eq_self.mpr, List.nil_append]
    · intro row hrow
      exact hacross last (List.mem_append_right _ List.mem_cons_self) row hrow
    · intro row hrow
      have hnot : (columns.boundary row).before (columns.boundary last) = false := by
        rcases List.mem_append.mp hrow with hearlier | hlast
        · exact HistoryCursor.before_asymm (hinit row hearlier last List.mem_cons_self)
        · rw [List.mem_singleton.mp hlast]
          exact HistoryCursor.before_irrefl _
      simp [hnot]

/-- A query after the rows listed so far returns the first rows that remain. -/
theorem historyRows_after {request : HistoryPageRequest} {now : Instant}
    (hsorted : (done ++ rest).Pairwise columns.Newer)
    (hperm : (columns.retained request.siliconUuid request.filter now hooks rows).Perm
      (done ++ rest))
    (hcursor : request.cursor = done.getLast?.map columns.boundary) :
    historyRows columns request now hooks rows = rest.take (request.limit + 1) := by
  let newer := fun a b : α => (columns.boundary a).before (columns.boundary b) = false
  have htotal : Std.Total newer := ⟨fun a b => by
    simp only [newer, HistoryCursor.before, decide_eq_false_iff_not, BitVec.lt_def]
    unfold Instant
    omega⟩
  have htrans : IsTrans α newer := ⟨fun a b c => by
    simp only [newer, HistoryCursor.before, decide_eq_false_iff_not, BitVec.lt_def]
    unfold Instant
    omega⟩
  have hselects : rows.filter (historySelects columns request now hooks) =
      (columns.retained request.siliconUuid request.filter now hooks rows).filter
        (fun row => request.cursor.all (columns.boundary row).before) := by
    rw [LogColumns.retained, List.filter_filter]
    refine List.filter_congr fun row _ => ?_
    rw [historySelects, Bool.and_comm]
  have hrest : (rows.filter (historySelects columns request now hooks)).Perm rest := by
    rw [hselects, hcursor]
    have hfiltered := hperm.filter fun row =>
      (done.getLast?.map columns.boundary).all (columns.boundary row).before
    rwa [filter_remaining hsorted] at hfiltered
  have hstrict := (List.pairwise_append.mp hsorted).2.1
  have hboundaries : (rest.map columns.boundary).Nodup := by
    refine List.pairwise_map.mpr (hstrict.imp fun {a b} h heq => ?_)
    rw [LogColumns.Newer, heq, HistoryCursor.before_irrefl] at h
    cases h
  have horder : (rows.filter (historySelects columns request now hooks)).insertionSort newer =
      rest := by
    refine List.Perm.eq_of_pairwise (fun a b ha hb hab hba => ?_)
      (List.pairwise_insertionSort newer _) (hstrict.imp fun {a b} h => ?_)
      ((List.perm_insertionSort _ _).trans hrest)
    · have hin : a ∈ rest := hrest.mem_iff.mp ((List.mem_insertionSort newer).mp ha)
      exact List.inj_on_of_nodup_map hboundaries hin hb (HistoryCursor.before_antisymm hab hba)
    · exact HistoryCursor.before_asymm h
  rw [historyRows, horder]

theorem exists_newest_first (hids : (rows.map columns.id).Nodup) :
    ∃ order : List α, order.Perm rows ∧ order.Pairwise columns.Newer := by
  let newer := fun a b : α => (columns.boundary a).before (columns.boundary b) = false
  have htotal : Std.Total newer := ⟨fun a b => by
    simp only [newer, HistoryCursor.before, decide_eq_false_iff_not, BitVec.lt_def]
    unfold Instant
    omega⟩
  have htrans : IsTrans α newer := ⟨fun a b c => by
    simp only [newer, HistoryCursor.before, decide_eq_false_iff_not, BitVec.lt_def]
    unfold Instant
    omega⟩
  have hperm := List.perm_insertionSort newer rows
  refine ⟨rows.insertionSort newer, hperm, ?_⟩
  have hdistinct : (rows.insertionSort newer).Pairwise fun a b => columns.id a ≠ columns.id b :=
    List.pairwise_map.mp ((hperm.map columns.id).nodup_iff.mpr hids)
  refine (List.pairwise_insertionSort newer rows).imp₂ (fun a b hnewer hne => ?_) hdistinct
  rw [LogColumns.Newer, ← Bool.not_eq_false]
  intro hbefore
  exact hne (congrArg HistoryCursor.id (HistoryCursor.before_antisymm hnewer hbefore))

-- -----------------------------------------------------------------------------
-- Following the cursors
-- -----------------------------------------------------------------------------

/-- Listing from a cursor, then following every next cursor to the last page. -/
inductive Follows (list : Nat → Option String → Except ApplicationError (ListedHistory ρ)) :
    Nat → Option String → List (ListedHistory ρ) → Prop
  | last {i : Nat} {cursor : Option String} {page : ListedHistory ρ} :
      list i cursor = .ok page → page.nextCursor = none → Follows list i cursor [page]
  | next {i : Nat} {cursor : Option String} {page : ListedHistory ρ} {text : String}
      {pages : List (ListedHistory ρ)} :
      list i cursor = .ok page → page.nextCursor = some text →
      Follows list (i + 1) (some text) pages → Follows list i cursor (page :: pages)

/-- The pages hold the record of every row once, newest first; none is empty while
there are rows, and the cursor is absent where every row has been listed. -/
structure Lists (columns : LogColumns α ρ) (retained : List α)
    (pages : List (ListedHistory ρ)) : Prop where
  complete : ∃ order : List α, order.Perm retained ∧ order.Pairwise columns.Newer ∧
    columns.Reads order (pages.flatMap ListedHistory.items)
  nonempty : retained ≠ [] → ∀ page ∈ pages, page.items ≠ []
  ends : ∀ before page after, pages = before ++ page :: after →
    (page.nextCursor = none ↔
      ((before ++ [page]).flatMap ListedHistory.items).length = retained.length)

structure Continues (columns : LogColumns α ρ) (cursor : List α → Option String)
    (done rest : List α) (result : Except ApplicationError (ListedHistory ρ)) : Prop where
  page : ∃ taken remaining read, rest = taken ++ remaining ∧
    result = .ok ⟨read, if remaining.isEmpty then none else cursor (done ++ taken)⟩ ∧
    columns.Reads taken read ∧ (rest ≠ [] → taken ≠ [])

/-- Where each page continues the rows before it, following the cursors lists the rest. -/
theorem follows_rest {order : List α} {cursor : List α → Option String}
    {list : Nat → Option String → Except ApplicationError (ListedHistory ρ)}
    (hcursor : ∀ done, done ≠ [] → ∃ text, cursor done = some text)
    (hlist : ∀ i done rest, order = done ++ rest →
      Continues columns cursor done rest (list i (cursor done))) :
    ∀ (n : Nat) (i : Nat) (done rest : List α), rest.length = n → order = done ++ rest →
      ∃ pages, Follows list i (cursor done) pages ∧
        columns.Reads rest (pages.flatMap ListedHistory.items) ∧
        (rest ≠ [] → ∀ page ∈ pages, page.items ≠ []) ∧
        ∀ before page after, pages = before ++ page :: after →
          (page.nextCursor = none ↔
            ((before ++ [page]).flatMap ListedHistory.items).length = rest.length) := by
  intro n
  induction n using Nat.strong_induction_on with
  | h n ih =>
    intro i done rest hlength horder
    obtain ⟨taken, remaining, read, hrest, hpage, hread, hsome⟩ := (hlist i done rest horder).page
    have hread_length := hread.length_eq
    have hread_some : rest ≠ [] → read ≠ [] := by
      intro hrows hempty
      rw [hempty, List.length_nil, List.length_eq_zero_iff] at hread_length
      exact hsome hrows hread_length
    rcases List.eq_nil_or_concat remaining with hnone | ⟨init, last, hlast⟩
    · subst hnone
      rw [List.append_nil] at hrest
      subst hrest
      refine ⟨[⟨read, none⟩], .last hpage rfl, ?_, ?_, ?_⟩
      · simpa using hread
      · intro hrows page hm
        rw [List.mem_singleton.mp hm]
        exact hread_some hrows
      · intro before page after hsplit
        obtain ⟨rfl, rfl, rfl⟩ : before = [] ∧ page = ⟨read, none⟩ ∧ after = [] := by
          cases before with
          | nil => simpa [eq_comm] using hsplit
          | cons first before => simp at hsplit
        simpa using hread_length.symm
    · have hremaining : remaining ≠ [] := by simp [hlast]
      have hrows : rest ≠ [] := by simp [hrest, hremaining]
      have htaken := hsome hrows
      have hshorter : remaining.length < n := by
        rw [← hlength, hrest, List.length_append]
        have := List.length_pos_iff.mpr htaken
        omega
      rw [List.isEmpty_eq_false_iff.mpr hremaining] at hpage
      obtain ⟨text, htext⟩ := hcursor (done ++ taken) (by simp [htaken])
      obtain ⟨pages, hfollows, hreads, hfull, hends⟩ := ih remaining.length hshorter (i + 1)
        (done ++ taken) remaining rfl (by rw [horder, hrest, List.append_assoc])
      refine ⟨⟨read, cursor (done ++ taken)⟩ :: pages, .next hpage htext (htext ▸ hfollows),
        ?_, ?_, ?_⟩
      · rw [hrest, List.flatMap_cons]
        exact List.rel_append hread hreads
      · intro _ page hm
        rcases List.mem_cons.mp hm with rfl | hm
        · exact hread_some hrows
        · exact hfull hremaining page hm
      · have hremaining_length := List.length_pos_iff.mpr hremaining
        intro before page after hsplit
        cases before with
        | nil =>
          rw [List.nil_append, List.cons.injEq] at hsplit
          rw [← hsplit.1, htext, hrest]
          simp only [List.nil_append, List.flatMap_cons, List.flatMap_nil, List.append_nil,
            List.length_append, reduceCtorEq, false_iff]
          omega
        | cons first before =>
          rw [List.cons_append, List.cons.injEq] at hsplit
          rw [hends before page after hsplit.2, ← hsplit.1, hrest]
          simp only [List.cons_append, List.flatMap_cons, List.length_append]
          omega

end

-- -----------------------------------------------------------------------------
-- The two listings
-- -----------------------------------------------------------------------------

/-- Rows that convert, at times the program can hold. -/
def LogColumns.Readable (columns : LogColumns α ρ) (rows : List α) : Prop :=
  ∀ row ∈ rows, (∃ item, columns.record row = .ok item) ∧
    (columns.receivedAt row).representable = true

theorem readEvents_allowed (authorization : AuthorizationContext) :
    authorizeAction authorization .readEvents = .ok () := rfl

namespace CursorCodec

section

variable {α ρ : Type} (codec : CursorCodec) (columns : LogColumns α ρ)

def listed (collection : HistoryCollection) (size : CapturedRequest → Nat)
    (command : ListHistoryCommand) (now : Instant) (hooks : Table HookRow) (rows : List α) :
    Except ApplicationError (ListedHistory ρ) := do
  let (request, scope) ← codec.historyRequest command collection
  let page ← liftStore (listHistory columns size request now hooks rows)
  return codec.encodePage page scope

def cursorAfter (scope : HistoryCursorScope) (rows : List α) : Option String :=
  (rows.getLast?.map columns.boundary).map (codec.encode scope)

variable {codec columns} {authorization : AuthorizationContext} {hookId : Option HookId}
  {collection : HistoryCollection} {limit : Nat} {boundary : Option HistoryCursor}

theorem mapM_decode {scope : HistoryCursorScope} {text : String} {cursor : HistoryCursor}
    (h : codec.decode scope text = .ok cursor) :
    (some text).mapM (codec.decode scope) = .ok (some cursor) := by
  show some <$> codec.decode scope text = _
  rw [h]
  rfl

theorem mapM_decode_error {scope : HistoryCursorScope} {text : String} {e : CursorError}
    (h : codec.decode scope text = .error e) :
    (some text).mapM (codec.decode scope) = .error e := by
  show some <$> codec.decode scope text = _
  rw [h]
  rfl

theorem historyRequest_ok (h : codec.ReadsIssued) (hlimit : 1 ≤ limit ∧ limit ≤ maxHistoryLimit)
    (htime : ∀ cursor ∈ boundary, cursor.receivedAt.representable = true) :
    codec.historyRequest ⟨authorization, hookId,
        boundary.map (codec.encode ⟨authorization.silicon.uuid, collection, ⟨hookId⟩⟩), limit⟩
        collection =
      .ok (⟨authorization.silicon.uuid, ⟨hookId⟩, boundary, limit⟩,
        ⟨authorization.silicon.uuid, collection, ⟨hookId⟩⟩) := by
  have hensure : limit ≠ 0 ∧ limit ≤ maxHistoryLimit := ⟨by omega, hlimit.2⟩
  unfold historyRequest
  rw [readEvents_allowed, ensure, if_pos hensure]
  cases boundary with
  | none => rfl
  | some cursor =>
    have hdecoded : codec.decode ⟨authorization.silicon.uuid, collection, ⟨hookId⟩⟩
        (codec.encode ⟨authorization.silicon.uuid, collection, ⟨hookId⟩⟩ cursor) = .ok cursor := by
      rw [decode_encode h (htime cursor rfl), if_pos rfl]
    dsimp only [Option.map_some]
    rw [mapM_decode hdecoded]
    rfl

theorem historyRequest_refused (h : codec.ReadsIssued) {scope : HistoryCursorScope}
    {cursor : HistoryCursor} (hlimit : 1 ≤ limit ∧ limit ≤ maxHistoryLimit)
    (htime : cursor.receivedAt.representable = true)
    (hscope : scope ≠ ⟨authorization.silicon.uuid, collection, ⟨hookId⟩⟩) :
    codec.historyRequest ⟨authorization, hookId, some (codec.encode scope cursor), limit⟩
      collection = .error (.validation "cursor") := by
  have hensure : limit ≠ 0 ∧ limit ≤ maxHistoryLimit := ⟨by omega, hlimit.2⟩
  have hdecoded : codec.decode ⟨authorization.silicon.uuid, collection, ⟨hookId⟩⟩
      (codec.encode scope cursor) = .error .scopeMismatch := by
    rw [decode_encode h htime, if_neg hscope]
  unfold historyRequest
  rw [readEvents_allowed, ensure, if_pos hensure]
  dsimp only
  rw [mapM_decode_error hdecoded]
  rfl

variable {size : CapturedRequest → Nat} {now : Instant} {hooks : Table HookRow} {rows : List α}
  {done rest : List α}

theorem listed_continues (h : codec.ReadsIssued) (hlimit : 1 ≤ limit ∧ limit ≤ maxHistoryLimit)
    (hreadable : columns.Readable (done ++ rest))
    (hsorted : (done ++ rest).Pairwise columns.Newer)
    (hperm : (columns.retained authorization.silicon.uuid ⟨hookId⟩ now hooks rows).Perm
      (done ++ rest)) :
    Continues columns
      (codec.cursorAfter columns ⟨authorization.silicon.uuid, collection, ⟨hookId⟩⟩) done rest
      (codec.listed columns collection size ⟨authorization, hookId,
        codec.cursorAfter columns ⟨authorization.silicon.uuid, collection, ⟨hookId⟩⟩ done, limit⟩
        now hooks rows) := by
  let scope : HistoryCursorScope := ⟨authorization.silicon.uuid, collection, ⟨hookId⟩⟩
  let request : HistoryPageRequest :=
    ⟨authorization.silicon.uuid, ⟨hookId⟩, done.getLast?.map columns.boundary, limit⟩
  have hrequest : codec.historyRequest ⟨authorization, hookId,
      (done.getLast?.map columns.boundary).map (codec.encode scope), limit⟩ collection =
        .ok (request, scope) := by
    refine historyRequest_ok h hlimit fun cursor hm => ?_
    obtain ⟨row, hrow, rfl⟩ := Option.map_eq_some_iff.mp hm
    exact (hreadable row (List.mem_append_left _ (List.mem_of_getLast? hrow))).2
  have hrows : historyRows columns request now hooks rows = rest.take (limit + 1) :=
    historyRows_after hsorted hperm rfl
  have hrecords : ∀ row ∈ rest.take (limit + 1), ∃ item, columns.record row = .ok item :=
    fun row hrow => (hreadable row (List.mem_append_right _ (List.mem_of_mem_take hrow))).1
  obtain ⟨taken, left, read, htake, hpage, hread, hfit, hsome⟩ :=
    collectPage_ok size hrecords [] 0 none limit.zero_le
  have hrest : rest = taken ++ (left ++ rest.drop (limit + 1)) := by
    rw [← List.append_assoc, ← htake, List.take_append_drop]
  -- One row more than the page holds was read, so nothing is left only at the end.
  have hleft : (left ++ rest.drop (limit + 1)).isEmpty = left.isEmpty := by
    cases left with
    | cons row left => rfl
    | nil =>
      have hlength := congrArg List.length htake
      rw [List.append_nil, List.length_take] at hlength
      rw [List.length_nil, Nat.zero_add] at hfit
      rw [List.nil_append, List.drop_eq_nil_of_le (by omega)]
  have htaken : rest ≠ [] → taken ≠ [] := by
    intro hne
    refine hsome rfl (by omega) ?_
    cases rest with
    | nil => exact absurd rfl hne
    | cons row rest => simp
  refine ⟨taken, left ++ rest.drop (limit + 1), read, hrest, ?_, hread, htaken⟩
  have hlist : listHistory columns size request now hooks rows =
      .ok ⟨read, if left.isEmpty then none else (taken.getLast?.map columns.boundary).or none⟩ := by
    have hensure : request.limit ≠ 0 ∧ request.limit ≤ maxHistoryLimit :=
      ⟨by show limit ≠ 0; omega, hlimit.2⟩
    rw [listHistory, hrows, validateLimit, ensure, if_pos hensure]
    exact hpage
  show (codec.historyRequest _ collection >>= fun _ => _) = _
  rw [cursorAfter, hrequest]
  show (liftStore (listHistory columns size request now hooks rows) >>= fun _ => _) = _
  rw [hlist, hleft]
  show Except.ok (ListedHistory.mk read _) = _
  cases hempty : left.isEmpty with
  | true => rfl
  | false =>
    have hne : taken ≠ [] := by
      refine htaken fun hnone => ?_
      rw [hnone, List.take_nil] at htake
      rw [(List.append_eq_nil_iff.mp htake.symm).2] at hempty
      cases hempty
    rw [cursorAfter, List.getLast?_append_of_ne_nil _ hne, Option.or_none]
    rfl

theorem listed_pages (h : codec.ReadsIssued)
    {limits : Nat → Nat} (hlimits : ∀ i, 1 ≤ limits i ∧ limits i ≤ maxHistoryLimit)
    {now : Nat → Instant} {hooks : Nat → Table HookRow} {rows : Nat → List α} {retained : List α}
    (hids : (retained.map columns.id).Nodup) (hreadable : columns.Readable retained)
    (hfixed : ∀ i, (columns.retained authorization.silicon.uuid ⟨hookId⟩ (now i) (hooks i)
      (rows i)).Perm retained) :
    ∃ pages, Follows (fun i cursor => codec.listed columns collection size
        ⟨authorization, hookId, cursor, limits i⟩ (now i) (hooks i) (rows i)) 0 none pages ∧
      Lists columns retained pages := by
  obtain ⟨order, hperm, hsorted⟩ := exists_newest_first hids
  let scope : HistoryCursorScope := ⟨authorization.silicon.uuid, collection, ⟨hookId⟩⟩
  have hcursor : ∀ done : List α, done ≠ [] →
      ∃ text, codec.cursorAfter columns scope done = some text := by
    intro done hdone
    rw [cursorAfter, List.getLast?_eq_some_getLast hdone]
    exact ⟨_, rfl⟩
  let list := fun (i : Nat) (cursor : Option String) => codec.listed columns collection size
    ⟨authorization, hookId, cursor, limits i⟩ (now i) (hooks i) (rows i)
  have hlist : ∀ i done rest, order = done ++ rest →
      Continues columns (codec.cursorAfter columns scope) done rest
        (list i (codec.cursorAfter columns scope done)) := by
    intro i done rest horder
    rw [horder] at hperm hsorted
    exact listed_continues h (hlimits i)
      (fun row hrow => hreadable row (hperm.mem_iff.mp hrow)) hsorted
      ((hfixed i).trans hperm.symm)
  obtain ⟨pages, hfollows, hreads, hnonempty, hends⟩ :=
    follows_rest hcursor hlist order.length 0 [] order rfl rfl
  refine ⟨pages, hfollows, ⟨order, hperm, hsorted, hreads⟩, fun hsome => ?_, ?_⟩
  · exact hnonempty fun hempty => hsome (hempty ▸ hperm).symm.eq_nil
  · rw [← hperm.length_eq]
    exact hends

end

/-- Listing from the start and following the cursors yields every retained row once,
newest first; the cursor of another listing is refused. -/
theorem history_listed {codec : CursorCodec} (h : codec.ReadsIssued)
    (size : CapturedRequest → Nat) (authorization : AuthorizationContext) (hookId : Option HookId)
    {limits : Nat → Nat} (hlimits : ∀ i, 1 ≤ limits i ∧ limits i ≤ maxHistoryLimit)
    (now : Nat → Instant) (db : Nat → Store) :
    (∀ retained : List EventRow,
      (∀ row ∈ retained, 0 < row.deliverySequence ∧ row.receivedAt.representable = true) →
      (∀ i, (EventRow.columns.retained authorization.silicon.uuid ⟨hookId⟩ (now i) (db i).hooks
        (db i).events.rows).Perm retained) →
      ∃ pages, Follows (fun i cursor =>
          codec.listEvents size ⟨authorization, hookId, cursor, limits i⟩ (now i) (db i)) 0 none
          pages ∧
        Lists EventRow.columns retained pages) ∧
    (∀ retained : List BlockedRequestRow,
      (∀ row ∈ retained, row.receivedAt.representable = true) →
      (∀ i, (BlockedRequestRow.columns.retained authorization.silicon.uuid ⟨hookId⟩ (now i)
        (db i).hooks (db i).blockedRequests.rows).Perm retained) →
      ∃ pages, Follows (fun i cursor =>
          codec.listBlockedRequests size ⟨authorization, hookId, cursor, limits i⟩ (now i) (db i))
          0 none pages ∧
        Lists BlockedRequestRow.columns retained pages) ∧
    ∀ (scope : HistoryCursorScope) (cursor : HistoryCursor) (i : Nat),
      cursor.receivedAt.representable = true →
      (scope ≠ ⟨authorization.silicon.uuid, .events, ⟨hookId⟩⟩ →
        codec.listEvents size ⟨authorization, hookId, some (codec.encode scope cursor), limits i⟩
          (now i) (db i) = .error (.validation "cursor")) ∧
      (scope ≠ ⟨authorization.silicon.uuid, .blockedRequests, ⟨hookId⟩⟩ →
        codec.listBlockedRequests size
          ⟨authorization, hookId, some (codec.encode scope cursor), limits i⟩ (now i) (db i) =
            .error (.validation "cursor")) := by
  refine ⟨fun retained hrows hfixed => ?_, fun retained hrows hfixed => ?_,
    fun scope cursor i htime => ⟨fun hscope => ?_, fun hscope => ?_⟩⟩
  · have hids : (retained.map EventRow.columns.id).Nodup := by
      refine ((hfixed 0).map _).nodup_iff.mp (List.Nodup.map_on (fun a ha b hb heq => ?_)
        ((db 0).events.nodup_rows.filter _))
      exact Table.eq_of_key (List.mem_of_mem_filter ha) (List.mem_of_mem_filter hb)
        (congrArg EventId.mk heq)
    refine listed_pages h hlimits hids (fun row hrow => ⟨?_, (hrows row hrow).2⟩) hfixed
    have hpositive : 1 ≤ row.deliverySequence := (hrows row hrow).1
    show ∃ item, row.toRecord = .ok item
    unfold EventRow.toRecord DeliverySequence.new
    rw [dif_pos hpositive]
    exact ⟨_, rfl⟩
  · have hids : (retained.map BlockedRequestRow.columns.id).Nodup := by
      refine ((hfixed 0).map _).nodup_iff.mp (List.Nodup.map_on (fun a ha b hb heq => ?_)
        ((db 0).blockedRequests.nodup_rows.filter _))
      exact Table.eq_of_key (List.mem_of_mem_filter ha) (List.mem_of_mem_filter hb)
        (congrArg BlockedRequestId.mk heq)
    exact listed_pages h hlimits hids (fun row hrow => ⟨⟨_, rfl⟩, hrows row hrow⟩) hfixed
  · unfold listEvents
    rw [historyRequest_refused h (hlimits i) htime hscope]
    rfl
  · unfold listBlockedRequests
    rw [historyRequest_refused h (hlimits i) htime hscope]
    rfl

end CursorCodec

-- -----------------------------------------------------------------------------
-- A history of two pages
-- -----------------------------------------------------------------------------

namespace PagedHistory

def parseUuid (text : String) : Option Uuid :=
  (hexDecode (text.toList.filter (· ≠ '-'))).map fun bytes =>
    BitVec.ofNat 128 (bytes.foldl (fun n b => n * 256 + b.toNat) 0)

theorem fold_asBytes (uuid : Uuid) :
    uuid.asBytes.foldl (fun n b => n * 256 + b.toNat) 0 = uuid.toNat := by
  have hbytes : ∀ k ≤ 16, ((List.range k).map fun i =>
      UInt8.ofNat (uuid.toNat / 256 ^ (15 - i) % 256)).foldl (fun n b => n * 256 + b.toNat) 0 =
        uuid.toNat / 256 ^ (16 - k) := by
    intro k
    induction k with
    | zero =>
      intro _
      exact (Nat.div_eq_of_lt (by have := uuid.isLt; omega)).symm
    | succ k ih =>
      intro hk
      have hpow : 16 - k = (15 - k) + 1 := by omega
      have hexp : 16 - (k + 1) = 15 - k := by omega
      have hbyte : (UInt8.ofNat (uuid.toNat / 256 ^ (15 - k) % 256)).toNat =
          uuid.toNat / 256 ^ (15 - k) % 256 :=
        Nat.mod_eq_of_lt (Nat.mod_lt _ (by decide))
      rw [List.range_succ, List.map_append, List.foldl_append, ih (by omega), hexp, hpow, pow_succ,
        ← Nat.div_div_eq_div_mul]
      simp only [List.map_cons, List.map_nil, List.foldl_cons, List.foldl_nil, hbyte]
      omega
  exact (hbytes 16 le_rfl).trans (by rw [Nat.sub_self, pow_zero, Nat.div_one])

theorem parseUuid_hyphenated (uuid : Uuid) : parseUuid uuid.hyphenated = some uuid := by
  have hdigit : ∀ n < 16, hexChar n ≠ '-' := by decide
  have hdigits : ∀ bytes : List UInt8, ∀ c ∈ hexEncode bytes, c ≠ '-' := by
    intro bytes
    induction bytes with
    | nil => exact List.forall_mem_nil _
    | cons b rest ih =>
      have hb := b.toNat_lt
      simp only [hexEncode, List.forall_mem_cons]
      exact ⟨hdigit _ (by omega), hdigit _ (by omega), ih⟩
  have hkept : ∀ chars : List Char, (∀ c ∈ chars, c ∈ hexEncode uuid.asBytes) →
      chars.filter (· ≠ '-') = chars := fun chars h =>
    List.filter_eq_self.mpr fun c hc => decide_eq_true (hdigits _ c (h c hc))
  have htext : uuid.hyphenated.toList.filter (· ≠ '-') = hexEncode uuid.asBytes := by
    rw [Uuid.hyphenated, String.toList_ofList]
    simp only [List.filter_append, List.filter_cons, ne_eq, not_true_eq_false, decide_false,
      Bool.false_eq_true, if_false]
    rw [hkept _ fun c => List.mem_of_mem_take,
      hkept _ fun c hc => List.mem_of_mem_drop (List.mem_of_mem_take hc),
      hkept _ fun c hc => List.mem_of_mem_drop (List.mem_of_mem_take hc),
      hkept _ fun c hc => List.mem_of_mem_drop (List.mem_of_mem_take hc),
      hkept _ fun c => List.mem_of_mem_drop]
    have hjoin : ∀ n m, (hexEncode uuid.asBytes).drop n =
        ((hexEncode uuid.asBytes).drop n).take m ++ (hexEncode uuid.asBytes).drop (n + m) := by
      intro n m
      rw [← List.drop_drop, List.take_append_drop]
    simp only [List.append_assoc]
    rw [← hjoin 16 4, ← hjoin 12 4, ← hjoin 8 4, List.take_append_drop]
  rw [parseUuid, htext, hexDecode_hexEncode, Option.map_some, fold_asBytes, BitVec.ofNat_toNat,
    BitVec.setWidth_eq]

open Classical in
noncomputable def readDocument (bytes : List UInt8) : Option JsonValue :=
  if h : ∃ claims : CursorClaims, utf8 claims.toJson.render = bytes then some h.choose.toJson
  else none

theorem numeral (n : Int) :
    toString n ≠ "" ∧ ∀ c ∈ (toString n).toList, Json.isNumeral c = true := by
  have hdigits : ∀ m : Nat, ∀ c ∈ Nat.toDigits 10 m, Json.isNumeral c = true := by
    intro m c hc
    have hdigit := isAsciiDigit_digit (Nat.isDigit_of_mem_toDigits (by decide) (by decide) hc)
    rw [Json.isNumeral, hdigit]
    rfl
  have hchars : ∀ m : Nat, (toString m).toList = Nat.toDigits 10 m := by simp
  cases n with
  | ofNat m =>
    show toString m ≠ "" ∧ ∀ c ∈ (toString m).toList, Json.isNumeral c = true
    rw [hchars, ne_eq, ← String.toList_inj, hchars]
    exact ⟨Nat.toDigits_ne_nil, hdigits m⟩
  | negSucc m =>
    have htext : (toString (Int.negSucc m)).toList = '-' :: Nat.toDigits 10 (m + 1) := by
      show ("-" ++ toString (m + 1)).toList = _
      simp
    rw [htext, ne_eq, ← String.toList_inj, htext]
    exact ⟨List.cons_ne_nil _ _, List.forall_mem_cons.mpr ⟨rfl, hdigits (m + 1)⟩⟩

theorem claims_numeric (claims : CursorClaims) : claims.toJson.Numeric := by
  have hfilter : claims.scope.filter.toJson.Numeric := by
    obtain ⟨_ | hookId⟩ := claims.scope.filter <;> exact ⟨trivial, trivial⟩
  exact ⟨numeral claims.version, ⟨trivial, trivial, hfilter, trivial⟩,
    numeral claims.receivedAtUnixNanos, trivial, trivial⟩

theorem readDocument_render (claims : CursorClaims) :
    readDocument (utf8 claims.toJson.render) = some claims.toJson := by
  have h : ∃ other : CursorClaims, utf8 other.toJson.render = utf8 claims.toJson.render :=
    ⟨claims, rfl⟩
  rw [readDocument, dif_pos h]
  exact congrArg some (JsonValue.render_inj (claims_numeric _) (claims_numeric _)
    (utf8_inj h.choose_spec))

/-- A tag that authenticates nothing: the laws of a codec without its secrecy. -/
noncomputable def codec : CursorCodec where
  authenticate _ := List.replicate hmacTagBytes 0
  tag_length _ := List.length_replicate
  fromSlice := readDocument
  parseUuid := parseUuid

def event (id : Uuid) : EventRow where
  id := ⟨id⟩
  hookId := StaleUpdate.hookId
  siliconId := StaleUpdate.row.siliconId
  siliconUuid := StaleUpdate.row.siliconUuid
  provider := StaleUpdate.row.name
  summary := "received"
  deliverySequence := 1
  request := ⟨"POST", "https://hook/", [], [], "192.0.2.1", 1⟩
  receivedAt := 1
  expiresAt := Instant.days 14

/-- Two requests received at one instant. -/
def database : Store :=
  { StaleUpdate.database with events := ⟨[event 1, event 2], by decide⟩ }

theorem retained_events : EventRow.columns.retained StaleUpdate.owner.silicon.uuid ⟨none⟩ 2
    database.hooks database.events.rows = [event 1, event 2] := by decide +kernel

theorem codec_reads : codec.ReadsIssued := by
  have hdocuments : codec.fromSlice = readDocument := rfl
  have huuids : codec.parseUuid = parseUuid := rfl
  constructor
  · rw [hdocuments]
    exact readDocument_render
  · rw [huuids]
    exact parseUuid_hyphenated

theorem tied_events_listed :
    ∃ pages, Follows (fun _ cursor => codec.listEvents (fun _ => 1)
        ⟨StaleUpdate.owner, none, cursor, 1⟩ 2 database) 0 none pages ∧
      Lists EventRow.columns [event 1, event 2] pages :=
  (CursorCodec.history_listed codec_reads (fun _ => 1) StaleUpdate.owner none
    (fun _ => ⟨le_rfl, by decide⟩) (fun _ => 2) fun _ => database).1 [event 1, event 2]
    (by decide +kernel) fun _ => .of_eq retained_events

end PagedHistory

end SiliconHook
