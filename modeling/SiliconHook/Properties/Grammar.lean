import Mathlib.Algebra.GroupWithZero.Nat
import SiliconHook.Domain.Parser

/-!
# The expression grammar

What a token list derives, and that the parser accepts exactly the derivable
expressions within its bounds: soundness follows the parser, completeness the
derivations.
-/

namespace SiliconHook

-- -----------------------------------------------------------------------------
-- Derivations
-- -----------------------------------------------------------------------------

inductive SegmentTokens : List Token → Segment → Prop
  | member (name : String) : SegmentTokens [.dot, .identifier name] (.key name)
  | quoted (name : String) : SegmentTokens [.leftBracket, .text name, .rightBracket] (.key name)
  | index (position : Nat) :
    SegmentTokens [.leftBracket, .integer position, .rightBracket] (.index position)

inductive SegmentsTokens : List Token → List Segment → Prop
  | nil : SegmentsTokens [] []
  | cons {tokens : List Token} {segment : Segment} {more : List Token} {segments : List Segment} :
    SegmentTokens tokens segment → SegmentsTokens more segments →
    SegmentsTokens (tokens ++ more) (segment :: segments)

inductive Item
  | argument (expression : Expr)
  | separator (value : String)
  | order (order : SortOrder)

def Item.argument? : Item → Option Expr
  | .argument expression => some expression
  | _ => none

def Item.separator? : Item → Option String
  | .separator value => some value
  | _ => none

def Item.order? : Item → Option SortOrder
  | .order direction => some direction
  | _ => none

mutual

/-- A token list derives an expression. Options stand anywhere among the
arguments, each at most once. -/
inductive ExprTokens : List Token → Expr → Prop
  | literal (value : String) : ExprTokens [.text value] (.literal value)
  | path {name : String} {root : Root} {tokens : List Token} {segments : List Segment} :
    Root.parse name = some root → SegmentsTokens tokens segments →
    ExprTokens (.identifier name :: tokens) (.path ⟨root, segments⟩)
  | emptyCall {name : String} {function : Function} : Function.parse name = some function →
    ExprTokens [.identifier name, .leftParen, .rightParen] (.call function [] none none)
  | call {name : String} {function : Function} {tokens : List Token} {items : List Item}
    {arguments : List Expr} {separator : Option String} {order : Option SortOrder} :
    Function.parse name = some function → ItemsTokens tokens items →
    items.filterMap Item.argument? = arguments →
    items.filterMap Item.separator? = Option.toList separator →
    items.filterMap Item.order? = Option.toList order →
    ExprTokens (.identifier name :: .leftParen :: (tokens ++ [.rightParen]))
      (.call function arguments separator order)

inductive ItemTokens : List Token → Item → Prop
  | argument {tokens : List Token} {expression : Expr} :
    ExprTokens tokens expression → ItemTokens tokens (.argument expression)
  | separator (value : String) :
    ItemTokens [.identifier "separator", .colon, .text value] (.separator value)
  | order {name : String} {order : SortOrder} : SortOrder.parse name = some order →
    ItemTokens [.identifier "order", .colon, .identifier name] (.order order)

inductive ItemsTokens : List Token → List Item → Prop
  | last {tokens : List Token} {item : Item} : ItemTokens tokens item → ItemsTokens tokens [item]
  | more {tokens : List Token} {item : Item} {more : List Token} {items : List Item} :
    ItemTokens tokens item → ItemsTokens more items →
    ItemsTokens (tokens ++ .comma :: more) (item :: items)

end

-- -----------------------------------------------------------------------------
-- Measures and checks of an expression
-- -----------------------------------------------------------------------------

mutual

/-- Expressions and path segments. -/
def Expr.nodes : Expr → Nat
  | .literal _ => 1
  | .path block => 1 + block.segments.length
  | .call _ arguments _ _ => 1 + Expr.nodesList arguments

def Expr.nodesList : List Expr → Nat
  | [] => 0
  | e :: rest => e.nodes + Expr.nodesList rest

end

mutual

def Expr.depth : Expr → Nat
  | .literal _ => 0
  | .path _ => 0
  | .call _ arguments _ _ => Expr.depthList arguments

def Expr.depthList : List Expr → Nat
  | [] => 0
  | e :: rest => max (e.depth + 1) (Expr.depthList rest)

end

structure CallFits (function : Function) (arguments : Nat) (separator : Option String)
    (order : Option SortOrder) : Prop where
  arity : function.arity.1 ≤ arguments ∧ arguments ≤ function.arity.2
  separatorAllowed : ∀ value ∈ separator, function.acceptsSeparator = true ∧ value ∈ separators
  separatorGiven : function.requiresSeparator = true → separator.isSome = true
  orderAllowed : ∀ value ∈ order, function.acceptsOrder = true

mutual

/-- Every call meets its function's demands and every path names a block. -/
def Expr.WellFormed : Expr → Prop
  | .literal _ => True
  | .path block => block.supported = true
  | .call function arguments separator order =>
    CallFits function arguments.length separator order ∧ Expr.WellFormedList arguments

def Expr.WellFormedList : List Expr → Prop
  | [] => True
  | e :: rest => e.WellFormed ∧ Expr.WellFormedList rest

end

theorem Expr.wellFormedList_iff {es : List Expr} :
    Expr.WellFormedList es ↔ ∀ e ∈ es, e.WellFormed := by
  induction es with
  | nil => simp [Expr.WellFormedList]
  | cons e rest ih => simp [Expr.WellFormedList, ih]

theorem Expr.depthList_le {es : List Expr} {n : Nat} :
    Expr.depthList es ≤ n ↔ ∀ e ∈ es, e.depth < n := by
  induction es with
  | nil => simp [Expr.depthList]
  | cons e rest ih =>
    rw [Expr.depthList, Nat.max_le, ih, List.forall_mem_cons, Nat.lt_iff_add_one_le]

theorem Expr.nodes_pos (e : Expr) : 1 ≤ e.nodes := by
  cases e <;> simp [Expr.nodes]

def Item.nodes : Item → Nat
  | .argument expression => expression.nodes
  | _ => 0

def Item.Fits (function : Function) (levels : Nat) : Item → Prop
  | .argument expression => expression.WellFormed ∧ expression.depth < levels
  | .separator value => function.acceptsSeparator = true ∧ value ∈ separators
  | .order _ => function.acceptsOrder = true

structure Added (items : List Item) (call call' : Call) : Prop where
  function : call'.function = call.function
  arguments : call'.arguments = call.arguments ++ items.filterMap Item.argument?
  separator : call'.separator.toList = call.separator.toList ++ items.filterMap Item.separator?
  order : call'.order.toList = call.order.toList ++ items.filterMap Item.order?

theorem Added.trans {call₁ call₂ call₃ : Call} (h : Added [item] call₁ call₂)
    (h' : Added items call₂ call₃) : Added (item :: items) call₁ call₃ := by
  have hcons : ∀ {α : Type} (f : Item → Option α),
      (item :: items).filterMap f = [item].filterMap f ++ items.filterMap f :=
    fun f => List.filterMap_append (l := [item])
  constructor
  · rw [h'.function, h.function]
  · rw [h'.arguments, h.arguments, hcons, List.append_assoc]
  · rw [h'.separator, h.separator, hcons, List.append_assoc]
  · rw [h'.order, h.order, hcons, List.append_assoc]

namespace Parser

variable {endOffset : Nat} {tokens : List Spanned} {call call' : Call}

-- -----------------------------------------------------------------------------
-- Soundness
-- -----------------------------------------------------------------------------

theorem countNode_ok : countNode endOffset nodes tokens = .ok nodes' ↔
    nodes' = nodes + 1 ∧ nodes + 1 ≤ maxNodes := by
  unfold countNode
  split
  · rename_i h
    simp only [reduceCtorEq, false_iff, not_and]
    omega
  · rename_i h
    simp only [Except.ok.injEq]
    omega

theorem segment_sound {rest : Shorter tokens}
    (h : segment endOffset tokens = .ok (some (s, rest))) :
    ∃ consumed, tokens = consumed ++ rest.val ∧
      SegmentTokens (consumed.map Spanned.token) s := by
  unfold segment at h
  split at h <;> cases h
  · exact ⟨[_, _], rfl, .member _⟩
  · exact ⟨[_, _, _], rfl, .quoted _⟩
  · exact ⟨[_, _, _], rfl, .index _⟩

theorem segments_sound {tokens : List Spanned} {rest : NoLonger tokens}
    (h : segments endOffset nodes tokens = .ok (found, nodes', rest)) :
    ∃ consumed, tokens = consumed ++ rest.val ∧
      SegmentsTokens (consumed.map Spanned.token) found ∧ nodes' = nodes + found.length ∧
      (nodes ≤ maxNodes → nodes' ≤ maxNodes) := by
  rw [segments] at h
  obtain ⟨first, hfirst, h⟩ := Except.bind_ok.mp h
  cases first with
  | none =>
    cases h
    exact ⟨[], rfl, .nil, rfl, id⟩
  | some step =>
    obtain ⟨s, left, hleft⟩ := step
    obtain ⟨counted, hcount, h⟩ := Except.bind_ok.mp h
    obtain ⟨⟨more, total, rest', hrest⟩, hmore, h⟩ := Except.bind_ok.mp h
    cases h
    obtain ⟨rfl, hbound⟩ := countNode_ok.mp hcount
    obtain ⟨consumed, heq, hs⟩ := segment_sound hfirst
    obtain ⟨consumed', heq', hss, htotal, hkept⟩ := segments_sound hmore
    refine ⟨consumed ++ consumed', ?_, ?_, ?_, fun _ => hkept hbound⟩
    · refine heq.trans ?_
      show consumed ++ left = consumed ++ consumed' ++ rest'
      rw [List.append_assoc]
      exact congrArg (consumed ++ ·) heq'
    · rw [List.map_append]
      exact .cons hs hss
    · rw [htotal, List.length_cons]
      omega
termination_by tokens.length

theorem path_sound {rest : NoLonger tokens}
    (h : path endOffset rootName offset nodes tokens = .ok (e, nodes', rest)) :
    ∃ consumed, tokens = consumed ++ rest.val ∧
      ExprTokens (.identifier rootName :: consumed.map Spanned.token) e ∧ e.WellFormed ∧
      e.depth = 0 ∧ nodes' + 1 = nodes + e.nodes ∧ (nodes ≤ maxNodes → nodes' ≤ maxNodes) := by
  unfold path at h
  split at h
  · cases h
  · rename_i root hroot
    obtain ⟨⟨found, total, rest'⟩, hsegments, h⟩ := Except.bind_ok.mp h
    obtain ⟨⟨⟩, hvalid, h⟩ := Except.bind_ok.mp h
    cases h
    obtain ⟨consumed, heq, hs, hnodes, hbound⟩ := segments_sound hsegments
    have hsupported : Path.supported ⟨root, found⟩ = true := by
      unfold validatePath at hvalid
      split at hvalid
      · assumption
      · cases hvalid
    refine ⟨consumed, heq, .path hroot hs, hsupported, rfl, ?_, hbound⟩
    show nodes' + 1 = nodes + (1 + found.length)
    omega

def Sound (levels : Nat) (parser : ArgumentParser) : Prop :=
  ∀ nodes tokens e nodes' rest, parser nodes tokens = .ok (e, nodes', rest) →
    ∃ consumed, tokens = consumed ++ rest.val ∧ ExprTokens (consumed.map Spanned.token) e ∧
      e.WellFormed ∧ e.depth < levels ∧ nodes' = nodes + e.nodes ∧ nodes' ≤ maxNodes

theorem option_sound {rest : Shorter tokens}
    (h : option endOffset call keyword offset tokens = .ok (call', rest)) :
    ∃ item consumed, tokens = consumed ++ rest.val ∧
      ItemTokens (.identifier keyword :: .colon :: consumed.map Spanned.token) item ∧
      Added [item] call call' ∧ (∀ levels, item.Fits call.function levels) ∧ item.nodes = 0 := by
  unfold option at h
  split at h
  · rename_i hkeyword
    obtain ⟨rfl, haccepts⟩ := hkeyword
    split at h
    · cases h
    · rename_i hnone
      split at h
      · rename_i value offset' rest'
        split at h
        · rename_i hallowed
          cases h
          refine ⟨.separator value, [⟨.text value, offset'⟩], rfl, .separator value, ?_,
            fun _ => ⟨haccepts, by simpa using hallowed⟩, rfl⟩
          have hempty : call.separator = none := by simpa using hnone
          exact ⟨rfl, by simp [Item.argument?], by simp [hempty, Item.separator?],
            by simp [Item.order?]⟩
        · cases h
      · cases h
  · split at h
    · rename_i hkeyword
      obtain ⟨rfl, haccepts⟩ := hkeyword
      split at h
      · cases h
      · rename_i hnone
        split at h
        · rename_i value offset' rest'
          split at h
          · rename_i order horder
            cases h
            refine ⟨.order order, [⟨.identifier value, offset'⟩], rfl, .order horder, ?_,
              fun _ => haccepts, rfl⟩
            have hempty : call.order = none := by simpa using hnone
            exact ⟨rfl, by simp [Item.argument?], by simp [Item.separator?],
              by simp [hempty, Item.order?]⟩
          · cases h
        · cases h
    · cases h

theorem argument_sound {parser : ArgumentParser} {levels : Nat} (hp : Sound levels parser)
    {rest : Shorter tokens}
    (h : argument endOffset parser call nodes tokens = .ok (call', nodes', rest)) :
    ∃ item consumed, tokens = consumed ++ rest.val ∧
      ItemTokens (consumed.map Spanned.token) item ∧ Added [item] call call' ∧
      item.Fits call.function levels ∧ nodes' = nodes + item.nodes ∧
      (nodes ≤ maxNodes → nodes' ≤ maxNodes) := by
  unfold argument at h
  split at h
  · rename_i keyword offset colon rest'
    obtain ⟨⟨added, left, hleft⟩, hoption, h⟩ := Except.bind_ok.mp h
    cases h
    obtain ⟨item, consumed, heq, hitem, hadded, hfits, hnodes⟩ := option_sound hoption
    refine ⟨item, ⟨.identifier keyword, offset⟩ :: ⟨.colon, colon⟩ :: consumed, ?_, hitem, hadded,
      hfits levels, by omega, id⟩
    exact congrArg (⟨.identifier keyword, offset⟩ :: ⟨.colon, colon⟩ :: ·) heq
  · obtain ⟨⟨e, total, left⟩, he, h⟩ := Except.bind_ok.mp h
    cases h
    obtain ⟨consumed, heq, hderives, hwf, hdepth, hnodes, hbound⟩ := hp _ _ _ _ _ he
    exact ⟨.argument e, consumed, heq, .argument hderives,
      ⟨rfl, by simp [Item.argument?], by simp [Item.separator?], by simp [Item.order?]⟩,
      ⟨hwf, hdepth⟩, hnodes, fun _ => hbound⟩

theorem arguments_sound {parser : ArgumentParser} {levels : Nat} (hp : Sound levels parser)
    {tokens : List Spanned} {call call' : Call} {rest : Shorter tokens}
    (h : arguments endOffset parser call nodes tokens = .ok (call', nodes', rest)) :
    ∃ items consumed close, tokens = consumed ++ ⟨.rightParen, close⟩ :: rest.val ∧
      ItemsTokens (consumed.map Spanned.token) items ∧ Added items call call' ∧
      (∀ item ∈ items, item.Fits call.function levels) ∧
      nodes' = nodes + (items.map Item.nodes).sum ∧ (nodes ≤ maxNodes → nodes' ≤ maxNodes) := by
  rw [arguments] at h
  obtain ⟨⟨added, total, left, hleft⟩, hargument, h⟩ := Except.bind_ok.mp h
  obtain ⟨item, consumed, heq, hitem, hadded, hfits, hnodes, hbound⟩ :=
    argument_sound hp hargument
  dsimp only at h heq
  split at h
  · rename_i comma rest' hcomma
    obtain ⟨⟨call₃, total', left', hleft'⟩, hmore, h⟩ := Except.bind_ok.mp h
    cases h
    obtain ⟨items, consumed', close, heq', hitems, hadded', hfits', hnodes', hbound'⟩ :=
      arguments_sound hp hmore
    rw [hadded.function] at hfits'
    refine ⟨item :: items, consumed ++ ⟨.comma, comma⟩ :: consumed', close, ?_, ?_,
      hadded.trans hadded', ?_, ?_, fun hn => hbound' (hbound hn)⟩
    · refine heq.trans ?_
      show consumed ++ ⟨.comma, comma⟩ :: rest' =
        consumed ++ ⟨.comma, comma⟩ :: consumed' ++ ⟨.rightParen, close⟩ :: left'
      rw [List.append_assoc]
      exact congrArg (consumed ++ ⟨.comma, comma⟩ :: ·) heq'
    · rw [List.map_append, List.map_cons]
      exact .more hitem hitems
    · intro other hm
      obtain rfl | hm := List.mem_cons.mp hm
      · exact hfits
      · exact hfits' other hm
    · rw [hnodes', hnodes, List.map_cons, List.sum_cons, Nat.add_assoc]
  · rename_i close rest' hclose
    cases h
    refine ⟨[item], consumed, close, heq, .last hitem, hadded, ?_, ?_, hbound⟩
    · intro other hm
      obtain rfl := List.mem_singleton.mp hm
      exact hfits
    · rw [hnodes, List.map_singleton, List.sum_singleton]
  · cases h
termination_by tokens.length

theorem validateCall_ok {offset : Nat} : validateCall call offset = .ok () ↔
    (call.function.arity.1 ≤ call.arguments.length ∧
      call.arguments.length ≤ call.function.arity.2) ∧
      (call.function.requiresSeparator = true → call.separator.isSome = true) := by
  unfold validateCall
  dsimp only
  split
  · rename_i h
    simp only [reduceCtorEq, false_iff, not_and]
    omega
  · split
    · rename_i h
      obtain ⟨hrequires, hnone⟩ := h
      simp only [reduceCtorEq, false_iff, not_and]
      intro _ hgiven
      rw [Option.isNone_iff_eq_none] at hnone
      rw [hnone] at hgiven
      cases hgiven hrequires
    · rename_i harity h
      simp only [true_iff]
      refine ⟨by omega, fun hrequires => ?_⟩
      rw [not_and, Option.isNone_iff_eq_none] at h
      exact Option.isSome_iff_ne_none.mpr (h hrequires)

theorem mem_filterMap_argument {items : List Item} {e : Expr} :
    e ∈ items.filterMap Item.argument? ↔ .argument e ∈ items := by
  rw [List.mem_filterMap]
  constructor
  · rintro ⟨item, hm, heq⟩
    cases item <;> cases heq
    exact hm
  · intro hm
    exact ⟨_, hm, rfl⟩

theorem sum_item_nodes (items : List Item) :
    (items.map Item.nodes).sum = Expr.nodesList (items.filterMap Item.argument?) := by
  induction items with
  | nil => rfl
  | cons item rest ih =>
    cases item <;> simp [List.filterMap_cons, Item.nodes, Item.argument?, Expr.nodesList, ih]

theorem Added.fits {function : Function} {items : List Item} {levels : Nat}
    (h : Added items ⟨function, [], none, none⟩ call)
    (hfits : ∀ item ∈ items, item.Fits function levels)
    (harity : function.arity.1 ≤ call.arguments.length ∧
      call.arguments.length ≤ function.arity.2)
    (hgiven : function.requiresSeparator = true → call.separator.isSome = true) :
    CallFits function call.arguments.length call.separator call.order ∧
      Expr.WellFormedList call.arguments ∧ Expr.depthList call.arguments ≤ levels := by
  have harguments : call.arguments = items.filterMap Item.argument? := h.arguments
  have hseparator : call.separator.toList = items.filterMap Item.separator? := h.separator
  have horder : call.order.toList = items.filterMap Item.order? := h.order
  refine ⟨⟨harity, fun value hv => ?_, hgiven, fun value hv => ?_⟩, ?_, ?_⟩
  · have hm : value ∈ items.filterMap Item.separator? := hseparator ▸ Option.mem_toList.mpr hv
    obtain ⟨item, hitem, heq⟩ := List.mem_filterMap.mp hm
    cases item <;> cases heq
    exact hfits _ hitem
  · have hm : value ∈ items.filterMap Item.order? := horder ▸ Option.mem_toList.mpr hv
    obtain ⟨item, hitem, heq⟩ := List.mem_filterMap.mp hm
    cases item <;> cases heq
    exact hfits _ hitem
  · rw [harguments, Expr.wellFormedList_iff]
    exact fun e he => (hfits _ (mem_filterMap_argument.mp he)).1
  · rw [harguments, Expr.depthList_le]
    exact fun e he => (hfits _ (mem_filterMap_argument.mp he)).2

theorem call_sound {parser : ArgumentParser} {levels : Nat} (hp : Sound levels parser)
    {rest : Shorter tokens}
    (h : Parser.call endOffset parser name offset nodes tokens = .ok (e, nodes', rest)) :
    ∃ consumed, tokens = consumed ++ rest.val ∧
      ExprTokens (.identifier name :: .leftParen :: consumed.map Spanned.token) e ∧
      e.WellFormed ∧ e.depth ≤ levels ∧ nodes' + 1 = nodes + e.nodes ∧
      (nodes ≤ maxNodes → nodes' ≤ maxNodes) := by
  unfold Parser.call at h
  split at h
  · cases h
  · rename_i function hfunction
    obtain ⟨⟨made, total, left⟩, harguments, h⟩ := Except.bind_ok.mp h
    obtain ⟨⟨⟩, hvalid, h⟩ := Except.bind_ok.mp h
    cases h
    obtain ⟨harity, hgiven⟩ := validateCall_ok.mp hvalid
    unfold callArguments at harguments
    split at harguments
    · rename_i close tail _
      cases harguments
      have hnone : Added [] ⟨function, [], none, none⟩ ⟨function, [], none, none⟩ :=
        ⟨rfl, rfl, rfl, rfl⟩
      have hall : ∀ item ∈ ([] : List Item), item.Fits function levels := fun _ hm => nomatch hm
      have hfits := Added.fits hnone hall harity hgiven
      exact ⟨[⟨.rightParen, close⟩], rfl, .emptyCall hfunction, ⟨hfits.1, hfits.2.1⟩, hfits.2.2,
        rfl, id⟩
    · obtain ⟨items, consumed, close, heq, hitems, hadded, hall, hnodes, hbound⟩ :=
        arguments_sound hp harguments
      have hsame : made.function = function := hadded.function
      rw [hsame] at harity hgiven
      have hfits := Added.fits hadded hall harity hgiven
      refine ⟨consumed ++ [⟨.rightParen, close⟩], ?_, ?_, ⟨?_, hfits.2.1⟩, hfits.2.2, ?_, hbound⟩
      · exact heq.trans (by rw [List.append_assoc]; rfl)
      · rw [List.map_append]
        show ExprTokens _ (.call made.function made.arguments made.separator made.order)
        rw [hsame]
        exact .call hfunction hitems hadded.arguments.symm hadded.separator.symm hadded.order.symm
      · rw [hsame]
        exact hfits.1
      · show nodes' + 1 = nodes + (1 + Expr.nodesList made.arguments)
        have harguments' : made.arguments = items.filterMap Item.argument? := hadded.arguments
        rw [harguments', ← sum_item_nodes]
        omega

theorem operand_sound {parser : ArgumentParser} {levels : Nat} (hp : Sound levels parser)
    {rest : Shorter tokens} (hn : nodes ≤ maxNodes)
    (h : operand endOffset parser nodes tokens = .ok (e, nodes', rest)) :
    ∃ consumed, tokens = consumed ++ rest.val ∧ ExprTokens (consumed.map Spanned.token) e ∧
      e.WellFormed ∧ e.depth ≤ levels ∧ nodes' + 1 = nodes + e.nodes ∧ nodes' ≤ maxNodes := by
  unfold operand at h
  split at h
  · rename_i value offset rest'
    cases h
    exact ⟨[⟨.text value, offset⟩], rfl, .literal value, trivial, Nat.zero_le _, rfl, hn⟩
  · rename_i name offset paren rest'
    obtain ⟨⟨made, total, left, hleft⟩, hcall, h⟩ := Except.bind_ok.mp h
    cases h
    obtain ⟨consumed, heq, hderives, hwf, hdepth, hnodes, hbound⟩ := call_sound hp hcall
    exact ⟨⟨.identifier name, offset⟩ :: ⟨.leftParen, paren⟩ :: consumed,
      congrArg (⟨.identifier name, offset⟩ :: ⟨.leftParen, paren⟩ :: ·) heq, hderives, hwf, hdepth,
      hnodes, hbound hn⟩
  · rename_i name offset rest' hcall
    obtain ⟨⟨made, total, left, hleft⟩, hpath, h⟩ := Except.bind_ok.mp h
    cases h
    obtain ⟨consumed, heq, hderives, hwf, hdepth, hnodes, hbound⟩ := path_sound hpath
    exact ⟨⟨.identifier name, offset⟩ :: consumed, congrArg (⟨.identifier name, offset⟩ :: ·) heq,
      hderives, hwf, hdepth ▸ Nat.zero_le _, hnodes, hbound hn⟩
  · cases h

theorem expression_sound (levels : Nat) : Sound levels (expression endOffset levels) := by
  induction levels with
  | zero =>
    intro nodes tokens e nodes' rest h
    cases h
  | succ levels ih =>
    intro nodes tokens e nodes' rest h
    rw [expression] at h
    obtain ⟨counted, hcount, h⟩ := Except.bind_ok.mp h
    obtain ⟨rfl, hbound⟩ := countNode_ok.mp hcount
    obtain ⟨consumed, heq, hderives, hwf, hdepth, hnodes, hbound'⟩ := operand_sound ih hbound h
    exact ⟨consumed, heq, hderives, hwf, Nat.lt_succ_of_le hdepth, by omega, hbound'⟩

-- -----------------------------------------------------------------------------
-- Completeness
-- -----------------------------------------------------------------------------

/-- What follows an argument: a comma, the closing parenthesis or nothing. -/
def Ends (rest : List Spanned) : Prop :=
  ∀ next ∈ rest.head?, next.token = .comma ∨ next.token = .rightParen

theorem map_token_cons {consumed : List Spanned} {token : Token} {more : List Token}
    (h : consumed.map Spanned.token = token :: more) :
    ∃ offset tail, consumed = ⟨token, offset⟩ :: tail ∧ tail.map Spanned.token = more := by
  obtain ⟨⟨_, offset⟩, tail, rfl, rfl, htail⟩ := List.map_eq_cons_iff.mp h
  exact ⟨offset, tail, rfl, htail⟩

theorem map_token_append {consumed : List Spanned} {first second : List Token}
    (h : consumed.map Spanned.token = first ++ second) :
    ∃ left right, consumed = left ++ right ∧ left.map Spanned.token = first ∧
      right.map Spanned.token = second :=
  List.map_eq_append_iff.mp h

theorem segment_complete {consumed : List Spanned} (rest : List Spanned)
    (h : SegmentTokens ts s) (hc : consumed.map Spanned.token = ts) :
    ∃ hless, segment endOffset (consumed ++ rest) = .ok (some (s, ⟨rest, hless⟩)) := by
  cases h with
  | member name =>
    obtain ⟨_, _, rfl, h₁⟩ := map_token_cons hc
    obtain ⟨_, _, rfl, h₂⟩ := map_token_cons h₁
    obtain rfl := List.map_eq_nil_iff.mp h₂
    exact ⟨_, rfl⟩
  | quoted name =>
    obtain ⟨_, _, rfl, h₁⟩ := map_token_cons hc
    obtain ⟨_, _, rfl, h₂⟩ := map_token_cons h₁
    obtain ⟨_, _, rfl, h₃⟩ := map_token_cons h₂
    obtain rfl := List.map_eq_nil_iff.mp h₃
    exact ⟨_, rfl⟩
  | index position =>
    obtain ⟨_, _, rfl, h₁⟩ := map_token_cons hc
    obtain ⟨_, _, rfl, h₂⟩ := map_token_cons h₁
    obtain ⟨_, _, rfl, h₃⟩ := map_token_cons h₂
    obtain rfl := List.map_eq_nil_iff.mp h₃
    exact ⟨_, rfl⟩

theorem segment_ends {rest : List Spanned} (h : Ends rest) :
    segment endOffset rest = .ok none := by
  cases rest with
  | nil => rfl
  | cons next tail =>
    obtain ⟨token, offset⟩ := next
    obtain hcomma | hparen := h _ rfl
    · dsimp only at hcomma
      subst hcomma
      rfl
    · dsimp only at hparen
      subst hparen
      rfl

theorem segments_complete (h : SegmentsTokens ts found) (nodes : Nat)
    {consumed rest : List Spanned} (hc : consumed.map Spanned.token = ts) (hrest : Ends rest)
    (hn : nodes + found.length ≤ maxNodes) :
    ∃ hle, segments endOffset nodes (consumed ++ rest) =
      .ok (found, nodes + found.length, ⟨rest, hle⟩) := by
  induction h generalizing nodes consumed with
  | nil =>
    obtain rfl := List.map_eq_nil_iff.mp hc
    show ∃ hle, segments endOffset nodes rest = .ok ([], nodes, ⟨rest, hle⟩)
    rw [segments]
    exact ⟨Nat.le_refl _, Except.bind_ok.mpr ⟨none, segment_ends hrest, rfl⟩⟩
  | @cons first s more found hs hmore ih =>
    obtain ⟨left, right, rfl, hleft, hright⟩ := map_token_append hc
    rw [List.length_cons] at hn ⊢
    have hcount : countNode endOffset nodes (right ++ rest) = .ok (nodes + 1) :=
      countNode_ok.mpr ⟨rfl, by omega⟩
    obtain ⟨hle, hrec⟩ := ih (nodes + 1) hright (by omega)
    obtain ⟨hless, hsegment⟩ := segment_complete (right ++ rest) hs hleft
    have harith : nodes + 1 + found.length = nodes + (found.length + 1) := by omega
    rw [harith] at hrec
    rw [List.append_assoc, segments]
    refine ⟨Nat.le_trans hle (Nat.le_of_lt hless), ?_⟩
    exact Except.bind_ok.mpr ⟨_, hsegment, Except.bind_ok.mpr ⟨_, hcount,
      Except.bind_ok.mpr ⟨_, hrec, rfl⟩⟩⟩

theorem segments_head (h : SegmentsTokens ts found) {consumed rest : List Spanned}
    (hc : consumed.map Spanned.token = ts) (hrest : Ends rest) :
    ∀ next ∈ (consumed ++ rest).head?, next.token ≠ .leftParen ∧ next.token ≠ .colon := by
  intro next hnext
  cases h with
  | nil =>
    obtain rfl := List.map_eq_nil_iff.mp hc
    obtain hcomma | hparen := hrest next hnext
    · rw [hcomma]
      exact ⟨nofun, nofun⟩
    · rw [hparen]
      exact ⟨nofun, nofun⟩
  | cons hs hmore =>
    cases hs <;>
    · obtain ⟨_, tail, rfl, -⟩ := map_token_cons hc
      cases hnext
      exact ⟨nofun, nofun⟩

theorem operand_path {parser : ArgumentParser} {tail : List Spanned} {rest : NoLonger tail}
    (hhead : ∀ next ∈ tail.head?, next.token ≠ .leftParen)
    (h : path endOffset name offset nodes tail = .ok (e, nodes', rest)) :
    operand endOffset parser nodes (⟨.identifier name, offset⟩ :: tail) =
      .ok (e, nodes', ⟨rest.val, Nat.lt_succ_of_le rest.property⟩) := by
  cases tail with
  | nil => exact Except.bind_ok.mpr ⟨_, h, rfl⟩
  | cons next more =>
    obtain ⟨token, _⟩ := next
    cases token with
    | leftParen => exact absurd rfl (hhead _ rfl)
    | _ => exact Except.bind_ok.mpr ⟨_, h, rfl⟩

theorem path_complete (hroot : Root.parse name = some root) (h : SegmentsTokens ts found)
    (nodes : Nat) {consumed rest : List Spanned} (hc : consumed.map Spanned.token = ts)
    (hrest : Ends rest) (hn : nodes + found.length ≤ maxNodes)
    (hsupported : Path.supported ⟨root, found⟩ = true) :
    ∃ hle, path endOffset name offset nodes (consumed ++ rest) =
      .ok (.path ⟨root, found⟩, nodes + found.length, ⟨rest, hle⟩) := by
  obtain ⟨hle, hsegments⟩ := @segments_complete endOffset _ _ h nodes _ _ hc hrest hn
  refine ⟨hle, ?_⟩
  unfold path
  rw [hroot]
  have hvalid : validatePath ⟨root, found⟩ offset = .ok () := if_pos hsupported
  exact Except.bind_ok.mpr ⟨_, hsegments, Except.bind_ok.mpr ⟨_, hvalid, rfl⟩⟩

/-- Items of a call whose options are not given yet, none of them twice. -/
structure Room (items : List Item) (call : Call) : Prop where
  separator : (call.separator.toList ++ items.filterMap Item.separator?).length ≤ 1
  order : (call.order.toList ++ items.filterMap Item.order?).length ≤ 1

theorem Room.first (h : Room (item :: items) call) : Room [item] call := by
  have hcons : ∀ {α : Type} (f : Item → Option α),
      ([item].filterMap f).length ≤ ((item :: items).filterMap f).length :=
    fun f => ((List.singleton_sublist.mpr (List.mem_cons_self ..)).filterMap f).length_le
  constructor
  · have := h.separator
    have := hcons Item.separator?
    simp only [List.length_append] at *
    omega
  · have := h.order
    have := hcons Item.order?
    simp only [List.length_append] at *
    omega

theorem Room.rest (h : Room (item :: items) call) (hadded : Added [item] call call') :
    Room items call' := by
  have hcons : ∀ {α : Type} (f : Item → Option α),
      (item :: items).filterMap f = [item].filterMap f ++ items.filterMap f :=
    fun f => List.filterMap_append (l := [item])
  constructor
  · rw [hadded.separator, List.append_assoc, ← hcons]
    exact h.separator
  · rw [hadded.order, List.append_assoc, ← hcons]
    exact h.order

theorem separator_complete {value : String} {valueOffset : Nat} (rest : List Spanned)
    (hfits : call.function.acceptsSeparator = true ∧ value ∈ separators)
    (hroom : Room [.separator value] call) :
    ∃ call' hless, option endOffset call "separator" offset (⟨.text value, valueOffset⟩ :: rest) =
      .ok (call', ⟨rest, hless⟩) ∧ Added [.separator value] call call' := by
  have hnone : call.separator = none := by
    have hlength := hroom.separator
    cases hs : call.separator with
    | none => rfl
    | some given => simp [hs, Item.separator?] at hlength
  refine ⟨{ call with separator := some value }, Nat.lt_succ_self _, ?_, rfl,
    by simp [Item.argument?], by simp [hnone, Item.separator?], by simp [Item.order?]⟩
  rw [option, if_pos ⟨rfl, hfits.1⟩, if_neg (by simp [hnone])]
  exact if_pos (by simpa using hfits.2)

theorem order_complete {direction : SortOrder} {valueOffset : Nat} (rest : List Spanned)
    (hname : SortOrder.parse name = some direction) (hfits : call.function.acceptsOrder = true)
    (hroom : Room [.order direction] call) :
    ∃ call' hless, option endOffset call "order" offset (⟨.identifier name, valueOffset⟩ :: rest) =
      .ok (call', ⟨rest, hless⟩) ∧ Added [.order direction] call call' := by
  have hnone : call.order = none := by
    have hlength := hroom.order
    cases hs : call.order with
    | none => rfl
    | some given => simp [hs, Item.order?] at hlength
  refine ⟨{ call with order := some direction }, Nat.lt_succ_self _, ?_, rfl,
    by simp [Item.argument?], by simp [Item.separator?], by simp [hnone, Item.order?]⟩
  rw [option, if_neg (by simp), if_pos ⟨rfl, hfits⟩, if_neg (by simp [hnone])]
  simp only [hname]

theorem argument_option {parser : ArgumentParser} {colon : Nat} {tail : List Spanned}
    {rest : Shorter tail}
    (h : option endOffset call keyword offset tail = .ok (call', rest)) :
    ∃ hless, argument endOffset parser call nodes
      (⟨.identifier keyword, offset⟩ :: ⟨.colon, colon⟩ :: tail) =
        .ok (call', nodes, ⟨rest.val, hless⟩) :=
  ⟨_, Except.bind_ok.mpr ⟨_, h, rfl⟩⟩

theorem argument_expression {parser : ArgumentParser} {rest : Shorter tokens}
    (hkeyword : ∀ keyword offset colon tail,
      tokens ≠ ⟨.identifier keyword, offset⟩ :: ⟨.colon, colon⟩ :: tail)
    (h : parser nodes tokens = .ok (e, nodes', rest)) :
    argument endOffset parser call nodes tokens =
      .ok ({ call with arguments := call.arguments ++ [e] }, nodes', rest) := by
  unfold argument
  split
  · exact absurd rfl (hkeyword _ _ _ _)
  · exact Except.bind_ok.mpr ⟨_, h, rfl⟩

theorem ExprTokens.no_keyword (h : ExprTokens ts e) {consumed rest : List Spanned}
    (hc : consumed.map Spanned.token = ts) (hrest : Ends rest) (keyword : String)
    (offset colon : Nat) (tail : List Spanned) :
    consumed ++ rest ≠ ⟨.identifier keyword, offset⟩ :: ⟨.colon, colon⟩ :: tail := by
  intro heq
  cases h with
  | literal value =>
    obtain ⟨_, _, rfl, -⟩ := map_token_cons hc
    cases heq
  | path _ hs =>
    obtain ⟨_, after, rfl, hafter⟩ := map_token_cons hc
    rw [List.cons_append, List.cons.injEq] at heq
    have hhead := segments_head hs hafter hrest ⟨.colon, colon⟩ (by rw [heq.2]; rfl)
    exact hhead.2 rfl
  | emptyCall _ =>
    obtain ⟨_, _, rfl, h₁⟩ := map_token_cons hc
    obtain ⟨_, _, rfl, -⟩ := map_token_cons h₁
    cases heq
  | call _ _ _ _ _ =>
    obtain ⟨_, _, rfl, h₁⟩ := map_token_cons hc
    obtain ⟨_, _, rfl, -⟩ := map_token_cons h₁
    cases heq

def Token.opens : Token → Bool
  | .text _ | .identifier _ => true
  | _ => false

theorem ItemsTokens.opens (h : ItemsTokens ts items) :
    ∃ first more, ts = first :: more ∧ Token.opens first = true := by
  have hitem : ∀ {ts item}, ItemTokens ts item →
      ∃ first more, ts = first :: more ∧ Token.opens first = true := by
    intro ts item h
    cases h with
    | argument he => cases he <;> exact ⟨_, _, rfl, rfl⟩
    | separator value => exact ⟨_, _, rfl, rfl⟩
    | order _ => exact ⟨_, _, rfl, rfl⟩
  cases h with
  | last h => exact hitem h
  | more h _ =>
    obtain ⟨first, more, rfl, hopens⟩ := hitem h
    exact ⟨first, _, rfl, hopens⟩

theorem callArguments_items {parser : ArgumentParser} {ts : List Token} {consumed rest : List Spanned}
    (h : ItemsTokens ts items) (hc : consumed.map Spanned.token = ts) :
    callArguments endOffset parser call nodes (consumed ++ rest) =
      arguments endOffset parser call nodes (consumed ++ rest) := by
  obtain ⟨first, more, rfl, hopens⟩ := ItemsTokens.opens h
  obtain ⟨_, _, rfl, -⟩ := map_token_cons hc
  cases first with
  | text value => rfl
  | identifier name => rfl
  | _ => cases hopens

theorem operand_call {parser : ArgumentParser} {paren : Nat} {tail : List Spanned}
    {rest : Shorter tail} (h : Parser.call endOffset parser name offset nodes tail =
      .ok (e, nodes', rest)) :
    ∃ hless, operand endOffset parser nodes
      (⟨.identifier name, offset⟩ :: ⟨.leftParen, paren⟩ :: tail) =
        .ok (e, nodes', ⟨rest.val, hless⟩) :=
  ⟨_, Except.bind_ok.mpr ⟨_, h, rfl⟩⟩

theorem expression_operand (levels : Nat) {rest : Shorter tokens} (hn : nodes + 1 ≤ maxNodes)
    (h : operand endOffset (expression endOffset levels) (nodes + 1) tokens =
      .ok (e, nodes', rest)) :
    expression endOffset (levels + 1) nodes tokens = .ok (e, nodes', rest) := by
  rw [expression]
  exact Except.bind_ok.mpr ⟨_, countNode_ok.mpr ⟨rfl, hn⟩, h⟩

theorem call_complete {parser : ArgumentParser} {made : Call} {rest : Shorter tokens}
    (hfunction : Function.parse name = some function)
    (harguments : callArguments endOffset parser ⟨function, [], none, none⟩ nodes tokens =
      .ok (made, nodes', rest))
    (hfits : CallFits made.function made.arguments.length made.separator made.order) :
    Parser.call endOffset parser name offset nodes tokens = .ok (made.toExpr, nodes', rest) := by
  have hvalid : validateCall made offset = .ok () :=
    validateCall_ok.mpr ⟨hfits.arity, hfits.separatorGiven⟩
  rw [Parser.call, hfunction]
  exact Except.bind_ok.mpr ⟨_, harguments, Except.bind_ok.mpr ⟨_, hvalid, rfl⟩⟩

theorem Added.call_eq {items : List Item} {function : Function} {arguments : List Expr}
    {separator : Option String} {order : Option SortOrder} {made : Call}
    (h : Added items ⟨function, [], none, none⟩ made)
    (harguments : items.filterMap Item.argument? = arguments)
    (hseparator : items.filterMap Item.separator? = Option.toList separator)
    (horder : items.filterMap Item.order? = Option.toList order) :
    made = ⟨function, arguments, separator, order⟩ := by
  have hlist : ∀ {α : Type} (a b : Option α), a.toList = b.toList → a = b := by
    intro α a b hab
    cases a <;> cases b <;> simp_all
  obtain ⟨f, as, s, o⟩ := made
  obtain rfl : f = function := h.function
  obtain rfl : as = arguments := h.arguments.trans harguments
  obtain rfl := hlist s separator (h.separator.trans hseparator)
  obtain rfl := hlist o order (h.order.trans horder)
  rfl

theorem items_fit {items : List Item} {function : Function} {arguments : List Expr}
    {separator : Option String} {order : Option SortOrder} {levels : Nat}
    (h : CallFits function n separator order) (hwf : Expr.WellFormedList arguments)
    (hdepth : Expr.depthList arguments ≤ levels)
    (harguments : items.filterMap Item.argument? = arguments)
    (hseparator : items.filterMap Item.separator? = Option.toList separator)
    (horder : items.filterMap Item.order? = Option.toList order) :
    ∀ item ∈ items, item.Fits function levels := by
  intro item hm
  cases item with
  | argument e =>
    have he : e ∈ arguments := harguments ▸ mem_filterMap_argument.mpr hm
    exact ⟨Expr.wellFormedList_iff.mp hwf e he, Expr.depthList_le.mp hdepth e he⟩
  | separator value =>
    have hv : value ∈ Option.toList separator :=
      hseparator ▸ List.mem_filterMap.mpr ⟨_, hm, rfl⟩
    exact h.separatorAllowed value (Option.mem_toList.mp hv)
  | order direction =>
    have hv : direction ∈ Option.toList order := horder ▸ List.mem_filterMap.mpr ⟨_, hm, rfl⟩
    exact h.orderAllowed direction (Option.mem_toList.mp hv)

mutual

/-- A derived expression within the bounds is read, up to what follows it. -/
theorem ExprTokens.complete {ts : List Token} {e : Expr} {levels : Nat} (nodes : Nat)
    {consumed rest : List Spanned} (h : ExprTokens ts e) (hc : consumed.map Spanned.token = ts)
    (hrest : Ends rest) (hwf : e.WellFormed)
    (hdepth : e.depth < levels) (hn : nodes + e.nodes ≤ maxNodes) :
    ∃ hless, expression endOffset levels nodes (consumed ++ rest) =
      .ok (e, nodes + e.nodes, ⟨rest, hless⟩) := by
  obtain ⟨levels, rfl⟩ : ∃ n, levels = n + 1 := ⟨levels - 1, by omega⟩
  have hcount : nodes + 1 ≤ maxNodes := by
    have := e.nodes_pos
    omega
  match h with
  | .literal value =>
    obtain ⟨_, _, rfl, h₁⟩ := map_token_cons hc
    obtain rfl := List.map_eq_nil_iff.mp h₁
    exact ⟨_, expression_operand levels hcount rfl⟩
  | @ExprTokens.path name root ts found hroot hs =>
    obtain ⟨_, tail, rfl, h₁⟩ := map_token_cons hc
    have hnodes : nodes + (1 + found.length) ≤ maxNodes := hn
    obtain ⟨hle, hpath⟩ := path_complete hroot hs (nodes + 1) h₁ hrest (by omega) hwf
    have hread := expression_operand levels hcount
      (operand_path (fun next hnext => (segments_head hs h₁ hrest next hnext).1) hpath)
    rw [Nat.add_assoc] at hread
    exact ⟨_, hread⟩
  | @ExprTokens.emptyCall name function hfunction =>
    obtain ⟨_, _, rfl, h₁⟩ := map_token_cons hc
    obtain ⟨_, _, rfl, h₂⟩ := map_token_cons h₁
    obtain ⟨close, _, rfl, h₃⟩ := map_token_cons h₂
    obtain rfl := List.map_eq_nil_iff.mp h₃
    have harguments : callArguments endOffset (expression endOffset levels)
        ⟨function, [], none, none⟩ (nodes + 1) (⟨.rightParen, close⟩ :: rest) =
        .ok (⟨function, [], none, none⟩, nodes + 1, ⟨rest, Nat.lt_succ_self _⟩) := rfl
    obtain ⟨_, hoperand⟩ := operand_call (call_complete hfunction harguments hwf.1)
    exact ⟨_, expression_operand levels hcount hoperand⟩
  | @ExprTokens.call name function ts items as separator order hfunction hitems harguments
      hseparator horder =>
    obtain ⟨_, _, rfl, h₁⟩ := map_token_cons hc
    obtain ⟨_, _, rfl, h₂⟩ := map_token_cons h₁
    obtain ⟨left, right, rfl, hleft, h₃⟩ := map_token_append h₂
    obtain ⟨close, _, rfl, h₄⟩ := map_token_cons h₃
    obtain rfl := List.map_eq_nil_iff.mp h₄
    have hnodes : nodes + (1 + Expr.nodesList as) ≤ maxNodes := hn
    have hsum : (items.map Item.nodes).sum = Expr.nodesList as := harguments ▸ sum_item_nodes items
    have hroom : Room items ⟨function, [], none, none⟩ := by
      constructor
      · rw [hseparator]
        cases separator <;> simp
      · rw [horder]
        cases order <;> simp
    have hfits := items_fit hwf.1 hwf.2 (Nat.le_of_lt_succ hdepth) harguments hseparator horder
    obtain ⟨made, hless, hread, hadded⟩ := ItemsTokens.complete (nodes + 1) close rest hitems hleft
      hfits hroom (by omega)
    obtain rfl := Added.call_eq hadded harguments hseparator horder
    rw [← callArguments_items hitems hleft, hsum, Nat.add_assoc] at hread
    obtain ⟨_, hoperand⟩ := operand_call (call_complete hfunction hread hwf.1)
    rw [List.cons_append, List.cons_append, List.append_assoc]
    exact ⟨_, expression_operand levels hcount hoperand⟩

theorem ItemTokens.complete {ts : List Token} {item : Item} {levels : Nat} (nodes : Nat)
    {call : Call} {consumed rest : List Spanned} (h : ItemTokens ts item)
    (hc : consumed.map Spanned.token = ts) (hrest : Ends rest)
    (hfits : item.Fits call.function levels) (hroom : Room [item] call)
    (hn : nodes + item.nodes ≤ maxNodes) :
    ∃ call' hless, argument endOffset (expression endOffset levels) call nodes (consumed ++ rest) =
      .ok (call', nodes + item.nodes, ⟨rest, hless⟩) ∧ Added [item] call call' := by
  match h with
  | .argument he =>
    obtain ⟨hless, hread⟩ := ExprTokens.complete nodes he hc hrest hfits.1 hfits.2 hn
    refine ⟨_, hless, argument_expression (ExprTokens.no_keyword he hc hrest) hread, rfl,
      by simp [Item.argument?], by simp [Item.separator?], by simp [Item.order?]⟩
  | .separator value =>
    obtain ⟨_, _, rfl, h₁⟩ := map_token_cons hc
    obtain ⟨_, _, rfl, h₂⟩ := map_token_cons h₁
    obtain ⟨_, _, rfl, h₃⟩ := map_token_cons h₂
    obtain rfl := List.map_eq_nil_iff.mp h₃
    obtain ⟨call', hshort, hoption, hadded⟩ := separator_complete rest hfits hroom
    obtain ⟨hless, hread⟩ := argument_option hoption
    exact ⟨call', hless, hread, hadded⟩
  | .order hname =>
    obtain ⟨_, _, rfl, h₁⟩ := map_token_cons hc
    obtain ⟨_, _, rfl, h₂⟩ := map_token_cons h₁
    obtain ⟨_, _, rfl, h₃⟩ := map_token_cons h₂
    obtain rfl := List.map_eq_nil_iff.mp h₃
    obtain ⟨call', hshort, hoption, hadded⟩ := order_complete rest hname hfits hroom
    obtain ⟨hless, hread⟩ := argument_option hoption
    exact ⟨call', hless, hread, hadded⟩

theorem ItemsTokens.complete {ts : List Token} {items : List Item} {levels : Nat}
    (nodes close : Nat) {call : Call} {consumed : List Spanned} (rest : List Spanned)
    (h : ItemsTokens ts items) (hc : consumed.map Spanned.token = ts)
    (hfits : ∀ item ∈ items, item.Fits call.function levels) (hroom : Room items call)
    (hn : nodes + (items.map Item.nodes).sum ≤ maxNodes) :
    ∃ call' hless, arguments endOffset (expression endOffset levels) call nodes
        (consumed ++ ⟨.rightParen, close⟩ :: rest) =
      .ok (call', nodes + (items.map Item.nodes).sum, ⟨rest, hless⟩) ∧ Added items call call' := by
  match h with
  | .last hitem =>
    have hends : Ends (⟨.rightParen, close⟩ :: rest) := by
      intro next hnext
      cases hnext
      exact .inr rfl
    rw [List.map_singleton, List.sum_singleton] at hn ⊢
    obtain ⟨call', hless, hread, hadded⟩ := ItemTokens.complete nodes hitem hc hends
      (hfits _ (List.mem_singleton.mpr rfl)) hroom hn
    rw [arguments]
    exact ⟨call', _, Except.bind_ok.mpr ⟨_, hread, rfl⟩, hadded⟩
  | @ItemsTokens.more ts item more items hitem hmore =>
    obtain ⟨left, right, rfl, hleft, hright⟩ := map_token_append hc
    obtain ⟨comma, tail, rfl, htail⟩ := map_token_cons hright
    have hends : Ends (⟨.comma, comma⟩ :: tail ++ ⟨.rightParen, close⟩ :: rest) := by
      intro next hnext
      cases hnext
      exact .inl rfl
    rw [List.map_cons, List.sum_cons] at hn ⊢
    obtain ⟨mid, hless, hread, hadded⟩ := ItemTokens.complete nodes hitem hleft hends
      (hfits _ (List.mem_cons_self ..)) hroom.first (by omega)
    obtain ⟨call', hless', hread', hadded'⟩ := ItemsTokens.complete (nodes + item.nodes) close rest
      hmore htail (fun other hm => hadded.function ▸ hfits other (List.mem_cons_of_mem _ hm))
      (hroom.rest hadded) (by omega)
    rw [List.append_assoc, arguments]
    rw [Nat.add_assoc] at hread'
    exact ⟨call', _, Except.bind_ok.mpr ⟨_, hread, Except.bind_ok.mpr ⟨_, hread', rfl⟩⟩,
      hadded.trans hadded'⟩

end

end Parser

-- -----------------------------------------------------------------------------
-- The whole token list, and the source
-- -----------------------------------------------------------------------------

structure Derived (tokens : List Token) (e : Expr) : Prop where
  derives : ExprTokens tokens e
  wellFormed : e.WellFormed
  depth : e.depth ≤ maxDepth
  nodes : e.nodes ≤ maxNodes

theorem parseTokens_iff {endOffset : Nat} {tokens : List Spanned} {e : Expr} :
    parseTokens endOffset tokens = .ok e ↔ Derived (tokens.map Spanned.token) e := by
  constructor
  · intro h
    obtain ⟨⟨made, total, rest, hless⟩, hread, h⟩ := Except.bind_ok.mp h
    obtain ⟨consumed, heq, hderives, hwf, hdepth, hnodes, hbound⟩ :=
      Parser.expression_sound (maxDepth + 1) _ _ _ _ _ hread
    dsimp only at h heq
    cases rest with
    | nil =>
      cases h
      rw [List.append_nil] at heq
      rw [Nat.zero_add] at hnodes
      exact ⟨heq ▸ hderives, hwf, Nat.le_of_lt_succ hdepth, hnodes ▸ hbound⟩
    | cons extra more => cases h
  · intro h
    have hends : Parser.Ends [] := fun _ hm => nomatch hm
    have hdepth : e.depth < maxDepth + 1 := Nat.lt_succ_of_le h.depth
    have hcomplete := @Parser.ExprTokens.complete endOffset _ _ _ 0 _ _ h.derives rfl hends
      h.wellFormed hdepth (by simpa using h.nodes)
    rw [List.append_nil] at hcomplete
    obtain ⟨hless, hread⟩ := hcomplete
    exact Except.bind_ok.mpr ⟨_, hread, rfl⟩

theorem tokenize_ok {source : String} {tokens : List Spanned} :
    tokenize source = .ok tokens ↔ source.utf8ByteSize ≤ maxExpressionBytes ∧
      lex source.utf8ByteSize source.toList = .ok tokens ∧ tokens ≠ [] := by
  unfold tokenize
  split
  · rename_i h
    simp only [reduceCtorEq, false_iff, not_and]
    omega
  · rename_i h
    have hle : source.utf8ByteSize ≤ maxExpressionBytes := Nat.le_of_not_lt h
    cases lex source.utf8ByteSize source.toList with
    | error e => simp
    | ok found =>
      cases found with
      | nil => simp
      | cons first more =>
        simp only [Except.ok.injEq, hle, true_and]
        exact ⟨fun heq => ⟨heq, heq ▸ List.cons_ne_nil _ _⟩, And.left⟩

theorem ExprTokens.ne_nil {tokens : List Token} {e : Expr} (h : ExprTokens tokens e) :
    tokens ≠ [] := by
  cases h <;> exact List.cons_ne_nil _ _

theorem parse_ok {source : String} {e : Expr} :
    parse source = .ok e ↔ source.utf8ByteSize ≤ maxExpressionBytes ∧
      ∃ tokens, lex source.utf8ByteSize source.toList = .ok tokens ∧
        Derived (tokens.map Spanned.token) e := by
  unfold parse
  rw [Except.bind_ok]
  constructor
  · rintro ⟨tokens, htokens, h⟩
    obtain ⟨hsize, hlex, -⟩ := tokenize_ok.mp htokens
    exact ⟨hsize, tokens, hlex, parseTokens_iff.mp h⟩
  · rintro ⟨hsize, tokens, hlex, h⟩
    have hne : tokens ≠ [] := fun hnil => h.derives.ne_nil (by rw [hnil]; rfl)
    exact ⟨tokens, tokenize_ok.mpr ⟨hsize, hlex, hne⟩, parseTokens_iff.mpr h⟩

/-- The parser is total, and accepts exactly the sources whose tokens derive a
well-formed expression within the bounds. -/
theorem parse_iff_derivable (source : String) (ast : Expr) :
    parse source = .ok ast ↔ source.utf8ByteSize ≤ maxExpressionBytes ∧
      ∃ tokens, lex source.utf8ByteSize source.toList = .ok tokens ∧
        ExprTokens (tokens.map Spanned.token) ast ∧ ast.WellFormed ∧ ast.depth ≤ maxDepth ∧
          ast.nodes ≤ maxNodes := by
  rw [parse_ok]
  constructor
  · rintro ⟨hsize, tokens, hlex, h⟩
    exact ⟨hsize, tokens, hlex, h.derives, h.wellFormed, h.depth, h.nodes⟩
  · rintro ⟨hsize, tokens, hlex, hderives, hwf, hdepth, hnodes⟩
    exact ⟨hsize, tokens, hlex, hderives, hwf, hdepth, hnodes⟩

end SiliconHook
