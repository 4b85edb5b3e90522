import Mathlib.Data.List.TakeWhile

/-!
# Text predicates

Byte and character classes of Rust's `str`, on Lean characters: ASCII classes,
Unicode control characters and White_Space, and trimming by a class.
-/

namespace SiliconHook.Text

def isAscii (c : Char) : Bool := c.toNat < 128

/-- Visible ASCII, `!` to `~`. -/
def isAsciiGraphic (c : Char) : Bool := 33 ≤ c.toNat && c.toNat ≤ 126

def isAsciiDigit (c : Char) : Bool := 48 ≤ c.toNat && c.toNat ≤ 57

def isAsciiUpper (c : Char) : Bool := 65 ≤ c.toNat && c.toNat ≤ 90

def isAsciiLower (c : Char) : Bool := 97 ≤ c.toNat && c.toNat ≤ 122

def isAsciiAlphanumeric (c : Char) : Bool :=
  isAsciiDigit c || isAsciiUpper c || isAsciiLower c

/-- General category Cc. -/
def isControl (c : Char) : Bool := c.toNat < 32 || (127 ≤ c.toNat && c.toNat ≤ 159)

/-- The Unicode White_Space property. -/
def isWhiteSpace (c : Char) : Bool :=
  let n := c.toNat
  (9 ≤ n && n ≤ 13) || n == 32 || n == 0x85 || n == 0xA0 || n == 0x1680 ||
    (0x2000 ≤ n && n ≤ 0x200A) || n == 0x2028 || n == 0x2029 || n == 0x202F ||
    n == 0x205F || n == 0x3000

def toAsciiUpper (c : Char) : Char :=
  if isAsciiLower c then Char.ofNat (c.toNat - 32) else c

def trimBy (p : Char → Bool) (text : List Char) : List Char :=
  ((text.dropWhile p).reverse.dropWhile p).reverse

def trim (text : String) : String := String.ofList (trimBy isWhiteSpace text.toList)

def toAsciiLower (c : Char) : Char :=
  if isAsciiUpper c then Char.ofNat (c.toNat + 32) else c

/-- `str::to_ascii_lowercase`. -/
def asciiLowercase (text : String) : String := String.ofList (text.toList.map toAsciiLower)

/-- `str::split` by a class: the pieces between the characters of the class. -/
def splitBy (p : Char → Bool) : List Char → List (List Char)
  | [] => [[]]
  | c :: rest =>
    if p c then [] :: splitBy p rest
    else match splitBy p rest with
      | [] => [[c]]
      | piece :: pieces => (c :: piece) :: pieces

/-- `str::split_once` at a character. -/
def splitOnce (separator : Char) : List Char → Option (List Char × List Char)
  | [] => none
  | c :: rest =>
    if c = separator then some ([], rest)
    else (splitOnce separator rest).map fun (before, after) => (c :: before, after)

theorem isAsciiGraphic_ascii (h : isAsciiGraphic c = true) : isAscii c = true := by
  simp only [isAsciiGraphic, isAscii, Bool.and_eq_true, decide_eq_true_eq] at h ⊢
  omega

theorem isAsciiAlphanumeric_graphic (h : isAsciiAlphanumeric c = true) :
    isAsciiGraphic c = true := by
  simp only [isAsciiAlphanumeric, isAsciiDigit, isAsciiUpper, isAsciiLower, isAsciiGraphic,
    Bool.or_eq_true, Bool.and_eq_true, decide_eq_true_eq] at h ⊢
  omega

theorem isAsciiGraphic_not_control (h : isAsciiGraphic c = true) : isControl c = false := by
  simp only [isAsciiGraphic, isControl, Bool.and_eq_true, decide_eq_true_eq, Bool.or_eq_false_iff,
    Bool.and_eq_false_iff, decide_eq_false_iff_not] at h ⊢
  omega

theorem isAsciiGraphic_not_whiteSpace (h : isAsciiGraphic c = true) :
    isWhiteSpace c = false := by
  simp only [isAsciiGraphic, isWhiteSpace, Bool.and_eq_true, decide_eq_true_eq,
    Bool.or_eq_false_iff, Bool.and_eq_false_iff, decide_eq_false_iff_not, beq_eq_false_iff_ne]
    at h ⊢
  omega

theorem trimBy_eq_self {text : List Char} (h : ∀ c ∈ text, p c = false) : trimBy p text = text := by
  have hd : ∀ l : List Char, (∀ c ∈ l, p c = false) → l.dropWhile p = l := by
    intro l hl
    cases l with
    | nil => rfl
    | cons c rest => simp [hl c (by simp)]
  simp only [trimBy, hd text h]
  rw [hd text.reverse (by simpa using h), List.reverse_reverse]

theorem utf8ByteSize_ofList_le (chars : List Char) :
    (String.ofList chars).utf8ByteSize ≤ 4 * chars.length := by
  induction chars with
  | nil => simp
  | cons c rest ih =>
    have h : String.ofList (c :: rest) = String.singleton c ++ String.ofList rest := by
      apply String.toList_inj.mp
      simp
    have hc := c.utf8Size_le_four
    rw [h, String.utf8ByteSize_append, String.utf8ByteSize_singleton]
    simp only [List.length_cons]
    omega

theorem toList_length_le (text : String) : text.toList.length ≤ text.utf8ByteSize := by
  suffices h : ∀ chars : List Char, chars.length ≤ (String.ofList chars).utf8ByteSize by
    simpa using h text.toList
  intro chars
  induction chars with
  | nil => simp
  | cons c rest ih =>
    have h : String.ofList (c :: rest) = String.singleton c ++ String.ofList rest := by
      apply String.toList_inj.mp
      simp
    have hc := c.utf8Size_pos
    rw [h, String.utf8ByteSize_append, String.utf8ByteSize_singleton]
    simp only [List.length_cons]
    omega

theorem trimBy_ne_nil {text : List Char} (hc : c ∈ text) (hp : p c = false) :
    trimBy p text ≠ [] := by
  have keeps : ∀ l : List Char, c ∈ l → c ∈ l.dropWhile p := by
    intro l hl
    induction l with
    | nil => exact hl
    | cons d rest ih =>
      rw [List.dropWhile_cons]
      split
      · rename_i hd
        obtain rfl | hrest := List.mem_cons.mp hl
        · rw [hp] at hd
          cases hd
        · exact ih hrest
      · exact hl
  intro hnil
  have hmem : c ∈ trimBy p text :=
    List.mem_reverse.mpr (keeps _ (List.mem_reverse.mpr (keeps _ hc)))
  rw [hnil] at hmem
  cases hmem

-- -----------------------------------------------------------------------------
-- The pieces of a split
-- -----------------------------------------------------------------------------

/-- A maximal run of characters outside the class. -/
structure IsRun (p : Char → Bool) (text run : List Char) : Prop where
  nonempty : run ≠ []
  outside : ∀ c ∈ run, p c = false
  maximal : ∃ before after, text = before ++ run ++ after ∧ (∀ c ∈ before.getLast?, p c = true) ∧
    ∀ c ∈ after.head?, p c = true

theorem splitBy_outside {text : List Char} (h : ∀ c ∈ text, p c = false) :
    splitBy p text = [text] := by
  induction text with
  | nil => rfl
  | cons c rest ih =>
    have hrest := ih fun d hd => h d (List.mem_cons_of_mem _ hd)
    simp [splitBy, h c (List.mem_cons_self ..), hrest]

theorem splitBy_ne_nil (p : Char → Bool) (text : List Char) : splitBy p text ≠ [] := by
  cases text with
  | nil => simp [splitBy]
  | cons c rest =>
    rw [splitBy]
    split
    · simp
    · split <;> simp

theorem splitBy_append {before after : List Char} (hc : p c = true) :
    splitBy p (before ++ c :: after) = splitBy p before ++ splitBy p after := by
  induction before with
  | nil => simp [splitBy, hc]
  | cons d rest ih =>
    rw [List.cons_append, splitBy, splitBy, ih]
    split
    · rfl
    · cases hrest : splitBy p rest with
      | nil => exact absurd hrest (splitBy_ne_nil p rest)
      | cons piece pieces => rfl

/-- A text without characters of the class, or what stands before its first one. -/
theorem split_first (p : Char → Bool) (text : List Char) :
    (∀ c ∈ text, p c = false) ∨ ∃ before c after, text = before ++ c :: after ∧
      (∀ d ∈ before, p d = false) ∧ p c = true := by
  induction text with
  | nil => exact .inl (by simp)
  | cons c rest ih =>
    cases hc : p c with
    | true => exact .inr ⟨[], c, rest, rfl, by simp, hc⟩
    | false =>
      obtain hnone | ⟨before, d, after, rfl, hbefore, hd⟩ := ih
      · exact .inl fun d hd => by
          obtain rfl | hd := List.mem_cons.mp hd
          · exact hc
          · exact hnone d hd
      · refine .inr ⟨c :: before, d, after, rfl, fun e he => ?_, hd⟩
        obtain rfl | he := List.mem_cons.mp he
        · exact hc
        · exact hbefore e he

theorem isRun_of_mem {text run : List Char} (h : run ∈ splitBy p text) (hne : run ≠ []) :
    IsRun p text run := by
  obtain hnone | ⟨before, c, after, rfl, hbefore, hc⟩ := split_first p text
  · rw [splitBy_outside hnone, List.mem_singleton] at h
    subst h
    exact ⟨hne, hnone, [], [], by simp, by simp, by simp⟩
  · rw [splitBy_append hc, splitBy_outside hbefore, List.singleton_append, List.mem_cons] at h
    obtain rfl | h := h
    · exact ⟨hne, hbefore, [], c :: after, by simp, by simp, by simpa using hc⟩
    · obtain ⟨-, houtside, first, last, rfl, hfirst, hlast⟩ := isRun_of_mem h hne
      refine ⟨hne, houtside, before ++ c :: first, last, by simp, fun d hd => ?_, hlast⟩
      rw [List.getLast?_append, List.getLast?_cons] at hd
      cases hf : first.getLast? with
      | none =>
        rw [hf] at hd
        cases hd
        exact hc
      | some e =>
        rw [hf] at hd
        cases hd
        exact hfirst e hf
termination_by text.length
decreasing_by
  subst_vars
  simp
  omega

theorem mem_of_isRun {text run : List Char} (h : IsRun p text run) : run ∈ splitBy p text := by
  obtain ⟨-, houtside, before, after, rfl, hbefore, hafter⟩ := h
  -- the separator after the run, where there is one
  have hrun : run ∈ splitBy p (run ++ after) := by
    cases after with
    | nil => simp [splitBy_outside houtside]
    | cons c rest =>
      rw [splitBy_append (hafter c rfl), splitBy_outside houtside]
      exact List.mem_append_left _ (List.mem_singleton_self _)
  rw [List.append_assoc]
  obtain rfl | ⟨init, c, rfl⟩ := before.eq_nil_or_concat
  · exact hrun
  · have hc : p c = true := hbefore c (by simp)
    rw [List.concat_eq_append, List.append_assoc, List.singleton_append, splitBy_append hc]
    exact List.mem_append_right _ hrun

theorem mem_splitBy {text run : List Char} (hne : run ≠ []) :
    run ∈ splitBy p text ↔ IsRun p text run :=
  ⟨fun h => isRun_of_mem h hne, mem_of_isRun⟩

-- -----------------------------------------------------------------------------
-- Trimming
-- -----------------------------------------------------------------------------

section

variable {p : Char → Bool} {chars ws : List Char}

theorem trimBy_split (p : Char → Bool) (chars : List Char) : ∃ front back,
    chars = front ++ trimBy p chars ++ back ∧ (∀ c ∈ front, p c = true) ∧
      ∀ c ∈ back, p c = true := by
  refine ⟨chars.takeWhile p, ((chars.dropWhile p).reverse.takeWhile p).reverse, ?_, ?_, ?_⟩
  · rw [List.append_assoc, trimBy, ← List.reverse_append, List.takeWhile_append_dropWhile,
      List.reverse_reverse, List.takeWhile_append_dropWhile]
  · exact fun c hc => List.mem_takeWhile_imp hc
  · exact fun c hc => List.mem_takeWhile_imp (List.mem_reverse.mp hc)

theorem dropWhile_eq_self (h : ∀ c ∈ chars.head?, p c = false) : chars.dropWhile p = chars := by
  cases chars with
  | nil => rfl
  | cons c rest => rw [List.dropWhile_cons, h c rfl]; rfl

theorem head?_dropWhile : ∀ c ∈ (chars.dropWhile p).head?, p c = false := by
  intro c hc
  have hhead := List.head?_dropWhile_not p chars
  rw [hc] at hhead
  exact eq_false_of_ne_true (by simpa using hhead)

theorem trimBy_trimBy : trimBy p (trimBy p chars) = trimBy p chars := by
  obtain ⟨back, hback⟩ : ∃ back, chars.dropWhile p = trimBy p chars ++ back := by
    refine ⟨((chars.dropWhile p).reverse.takeWhile p).reverse, ?_⟩
    rw [trimBy, ← List.reverse_append, List.takeWhile_append_dropWhile, List.reverse_reverse]
  have hfront : (trimBy p chars).dropWhile p = trimBy p chars := by
    refine dropWhile_eq_self fun c hc => ?_
    have hhead : c ∈ (chars.dropWhile p).head? := ?_
    · exact head?_dropWhile c hhead
    rw [hback, List.head?_append, Option.mem_def.mp hc]
    rfl
  have hreverse : (trimBy p chars).reverse = (chars.dropWhile p).reverse.dropWhile p := by
    rw [trimBy, List.reverse_reverse]
  calc trimBy p (trimBy p chars)
      = (((trimBy p chars).dropWhile p).reverse.dropWhile p).reverse := rfl
    _ = ((trimBy p chars).reverse.dropWhile p).reverse := by rw [hfront]
    _ = ((chars.dropWhile p).reverse.dropWhile p).reverse := by
        rw [hreverse, dropWhile_eq_self head?_dropWhile]

theorem splitOnce_some {text before after : List Char} :
    splitOnce separator text = some (before, after) ↔
      text = before ++ separator :: after ∧ separator ∉ before := by
  induction text generalizing before with
  | nil => simp [splitOnce]
  | cons c rest ih =>
    rw [splitOnce]
    split
    · rename_i hc
      subst hc
      cases before with
      | nil => simp
      | cons d before =>
        simp only [Option.some.injEq, Prod.mk.injEq, reduceCtorEq, false_and, List.cons_append,
          List.cons.injEq, List.mem_cons, not_or, false_iff, not_and]
        rintro ⟨rfl, -⟩ hne
        exact absurd rfl hne
    · rename_i hc
      cases before with
      | nil =>
        simp [hc]
      | cons d before =>
        simp only [Option.map_eq_some_iff, Prod.exists, Prod.mk.injEq, List.cons.injEq,
          List.cons_append, List.mem_cons, not_or]
        constructor
        · rintro ⟨first, last, hsplit, ⟨rfl, rfl⟩, rfl⟩
          obtain ⟨rfl, hnot⟩ := ih.mp hsplit
          exact ⟨⟨rfl, rfl⟩, Ne.symm hc, hnot⟩
        · rintro ⟨⟨rfl, rfl⟩, -, hnot⟩
          exact ⟨before, after, ih.mpr ⟨rfl, hnot⟩, ⟨rfl, rfl⟩, rfl⟩

theorem takeWhile_append_outside (h : ∀ c ∈ ws, p c = false) :
    (chars ++ ws).takeWhile p = chars.takeWhile p ∧
      (chars ++ ws).dropWhile p = chars.dropWhile p ++ ws := by
  induction chars with
  | nil =>
    cases ws with
    | nil => exact ⟨rfl, rfl⟩
    | cons c rest => simp [h c List.mem_cons_self]
  | cons c rest ih =>
    cases hc : p c with
    | true => simpa [hc] using ih
    | false => simp [hc]

end

end SiliconHook.Text
