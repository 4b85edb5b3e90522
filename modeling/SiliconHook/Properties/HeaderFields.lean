import SiliconHook.Application.Ingress
import Mathlib.Data.List.Induction

/-!
# Repeated header fields

A field is looked up in the list of fields, or in the object they are merged into.
Each merge has a step for one more field, and the steps agree.
-/

namespace SiliconHook

open Encoding Text

def combined : List String → Option String
  | [] => none
  | values => some (", ".intercalate values)

def combineNext (value : String) : Option String → String
  | none => value
  | some existing => existing ++ ", " ++ value

theorem combined_append (values : List String) (value : String) :
    combined (values ++ [value]) = some (combineNext value (combined values)) := by
  cases values with
  | nil => simp [combined, combineNext]
  | cons first rest =>
    have hjoined : ", ".intercalate (first :: rest ++ [value]) =
        ", ".intercalate (first :: rest) ++ ", " ++ value := by
      rw [String.intercalate_append_of_ne_nil (by simp) (by simp), String.intercalate_singleton]
    exact congrArg some hjoined

def valuesOf (headers : List (String × String)) (name : String) : List String :=
  (headers.filter (·.1 = name)).map Prod.snd

theorem header_eq (request : CapturedRequest) (name : String) :
    request.header name = combined (valuesOf request.headers (asciiLowercase name)) := by
  unfold CapturedRequest.header valuesOf
  generalize (request.headers.filter _).map Prod.snd = values
  cases values <;> rfl

def field (members : List (String × Value)) (name : String) : Option Value :=
  (members.find? (·.1 = name)).map Prod.snd

theorem field_cons (member : String × Value) (rest : List (String × Value)) (name : String) :
    field (member :: rest) name = if member.1 = name then some member.2 else field rest name := by
  rw [field, List.find?_cons]
  by_cases hname : member.1 = name <;> simp [field, hname]

def Texts (members : List (String × Value)) : Prop :=
  ∀ member ∈ members, ∃ text, member.2 = .text text

theorem texts_addHeader {members : List (String × Value)} (h : Texts members)
    (name value : String) : Texts (addHeader members name value) := by
  induction members with
  | nil => exact fun member hm => ⟨value, by rw [List.mem_singleton.mp hm]⟩
  | cons member rest ih =>
    obtain ⟨hmember, hrest⟩ := List.forall_mem_cons.mp h
    obtain ⟨other, kept⟩ := member
    obtain ⟨existing, rfl⟩ := hmember
    rw [addHeader]
    split
    · exact List.forall_mem_cons.mpr ⟨⟨_, rfl⟩, hrest⟩
    · exact List.forall_mem_cons.mpr ⟨⟨_, rfl⟩, ih hrest⟩

theorem field_addHeader {members : List (String × Value)} (h : Texts members)
    (name value wanted : String) {merged : Option String}
    (hmerged : field members wanted = merged.map .text) :
    field (addHeader members name value) wanted =
      if name = wanted then some (.text (combineNext value merged)) else merged.map .text := by
  induction members with
  | nil =>
    cases merged with
    | none => exact field_cons (name, .text value) [] wanted
    | some existing => cases hmerged
  | cons member rest ih =>
    obtain ⟨hmember, hrest⟩ := List.forall_mem_cons.mp h
    obtain ⟨other, kept⟩ := member
    obtain ⟨existing, rfl⟩ := hmember
    rw [addHeader]
    rw [field_cons] at hmerged
    by_cases hother : other = wanted
    · subst hother
      rw [if_pos rfl] at hmerged
      cases merged with
      | none => cases hmerged
      | some first =>
        obtain rfl : existing = first := Value.text.inj (Option.some.inj hmerged)
        by_cases hname : other = name
        · rw [if_pos hname, field_cons, if_pos rfl, if_pos hname.symm]
          rfl
        · rw [if_neg hname, field_cons, if_pos rfl, if_neg (Ne.symm hname)]
          rfl
    · rw [if_neg hother] at hmerged
      by_cases hname : other = name
      · have hapart : ¬ name = wanted := fun hsame => hother (hname.trans hsame)
        rw [if_pos hname, field_cons, if_neg hother, if_neg hapart, hmerged]
      · rw [if_neg hname, field_cons, if_neg hother, ih hrest hmerged]

def merged (headers : List (String × String)) : List (String × Value) :=
  headers.foldl (fun members header => addHeader members header.1 header.2) []

theorem field_merged (headers : List (String × String)) (name : String) :
    Texts (merged headers) ∧
      field (merged headers) name = (combined (valuesOf headers name)).map .text := by
  induction headers using List.reverseRecOn with
  | nil => exact ⟨(fun _ hm => nomatch hm), rfl⟩
  | append_singleton headers header ih =>
    obtain ⟨htexts, hfield⟩ := ih
    have hstep : merged (headers ++ [header]) = addHeader (merged headers) header.1 header.2 := by
      rw [merged, List.foldl_append]
      rfl
    have hvalues : valuesOf (headers ++ [header]) name =
        valuesOf headers name ++ if header.1 = name then [header.2] else [] := by
      rw [valuesOf, List.filter_append, List.map_append]
      by_cases hname : header.1 = name <;> simp [valuesOf, hname]
    rw [hstep, hvalues]
    refine ⟨texts_addHeader htexts _ _, ?_⟩
    rw [field_addHeader htexts _ _ _ hfield]
    by_cases hname : header.1 = name
    · rw [if_pos hname, if_pos hname, combined_append]
      rfl
    · rw [if_neg hname, if_neg hname, List.append_nil]

def headerBlock (name : String) : Expr := .path ⟨.request, [.key "headers", .key name]⟩

theorem evaluate_header (lib : ExpressionLibrary) (context : EvalContext) (name : String) :
    evaluate lib context (headerBlock name) =
      .ok ((context.request.header name).elim .null .text) := by
  have hfield := (field_merged context.request.headers (asciiLowercase name)).2
  rw [header_eq]
  show (Except.ok ((field (merged context.request.headers) (asciiLowercase name)).getD .null) :
    Except EvalError Value) = _
  rw [hfield]
  cases combined (valuesOf context.request.headers (asciiLowercase name)) <;> rfl

/-- A header block is the text the lookup answers, and null exactly where it answers none. -/
theorem header_block_agrees (lib : ExpressionLibrary) (context : EvalContext) (name : String) :
    (∀ text, evaluate lib context (headerBlock name) = .ok (.text text) ↔
      context.request.header name = some text) ∧
    (evaluate lib context (headerBlock name) = .ok .null ↔ context.request.header name = none) := by
  rw [evaluate_header]
  cases context.request.header name with
  | none => simp
  | some text => simp

end SiliconHook
