import TwoWaySql.Compiler
import TwoWaySql.Proofs.Decisions

/-!
# Lists in place of a bind directive

A list is written as a group in brackets, with one item of the group for each of the list: a
placeholder, or a group of placeholders for a pair or a triple. The values are those of the
placeholders in order, and the log has their literals in the same places
(`renderTree_bind_list`).
-/

namespace TwoWaySql.Template

/-! ## What an item stands for -/

/-- The values that have placeholders of their own in an item of a list. -/
def components : Value → List Value
  | .pair a b => [a, b]
  | .triple a b c => [a, b, c]
  | v => [v]

/-- An item of a list with a mark for each of its components. -/
def itemText (mark : Value → String) : Value → String
  | .pair a b => "(" ++ mark a ++ ", " ++ mark b ++ ")"
  | .triple a b c => "(" ++ mark a ++ ", " ++ mark b ++ ", " ++ mark c ++ ")"
  | v => mark v

example (a b c : Value) : itemText (fun _ => "?") (.triple a b c) = "(?, ?, ?)" := rfl

/-- The items of a list in brackets; an empty list is a null. -/
def groupText : List String → String
  | [] => "(null)"
  | items => "(" ++ ", ".intercalate items ++ ")"

/-! ## Groups -/

theorem join_intersperse (sep : String) (texts : List String) :
    String.join (texts.intersperse sep) = sep.intercalate texts := by
  induction texts with
  | nil => rfl
  | cons s ss ih =>
    cases ss with
    | nil => simp
    | cons t ts =>
      rw [List.intersperse_cons_cons, String.join_cons, String.join_cons, ih,
        String.intercalate_cons_cons, String.append_assoc]

theorem log_tuple (outputs : List Output) :
    (tuple outputs).log = "(" ++ ", ".intercalate (outputs.map (·.log)) ++ ")" := by
  rw [← join_intersperse]
  exact proj_tuple (fun _ => rfl) (fun _ _ => rfl) outputs

theorem values_join (outputs : List Output) :
    (Output.join outputs).values = outputs.flatMap (·.values) := by
  induction outputs with
  | nil => rfl
  | cons o os ih =>
    show o.values ++ (Output.join os).values = _
    rw [ih, List.flatMap_cons]

/-- Brackets and commas have no values. -/
theorem values_tuple (outputs : List Output) :
    (tuple outputs).values = outputs.flatMap (·.values) := by
  have hsep : (outputs.intersperse (.sql ", ")).flatMap (·.values) =
      outputs.flatMap (·.values) := by
    induction outputs with
    | nil => rfl
    | cons o os ih =>
      cases os with
      | nil => rfl
      | cons p ps =>
        rw [List.intersperse_cons_cons, List.flatMap_cons, List.flatMap_cons, ih, List.flatMap_cons]
        rfl
  show [] ++ (Output.join (outputs.intersperse (.sql ", "))).values ++ [] = _
  rw [List.append_nil, List.nil_append, values_join, hsep]

/-! ## Items -/

variable (format : Formatter)

theorem log_itemOutput (v : Value) :
    (itemOutput format v).log = itemText (fun v => format (.of v)) v := by
  cases v with
  | pair a b =>
    refine (log_tuple _).trans ?_
    simp [Output.placeholder, itemText, String.append_assoc]
  | triple a b c =>
    refine (log_tuple _).trans ?_
    simp [Output.placeholder, itemText, String.append_assoc]
  | _ => rfl

theorem values_itemOutput (v : Value) :
    (itemOutput format v).values = (components v).map Typed.of := by
  cases v with
  | pair | triple =>
    refine (values_tuple _).trans ?_
    simp [Output.placeholder, components]
  | _ => rfl

/-- The text of an item has a question mark for each component. -/
theorem text_itemShape (v : Value) : (itemShape v).text = itemText (fun _ => "?") v := by
  cases v <;> rfl

/-! ## Lists -/

theorem text_bindOutput_list (items : List Value) (type : ValueType) :
    (bindOutput format ⟨.list items, type⟩).text =
      groupText (items.map (itemText fun _ => "?")) := by
  rw [text_bindOutput, ← List.map_congr_left fun v _ => text_itemShape v]
  cases items with
  | nil => rfl
  | cons item items =>
    show "(" ++ String.join (((item :: items).map itemShape).map ItemShape.text |>.intersperse ", ")
      ++ ")" = _
    rw [join_intersperse, List.map_map]
    rfl

theorem log_bindOutput_list (items : List Value) (type : ValueType) :
    (bindOutput format ⟨.list items, type⟩).log =
      groupText (items.map (itemText fun v => format (.of v))) := by
  cases items with
  | nil =>
    refine (log_tuple _).trans ?_
    simp [Output.sql, groupText]
  | cons item items =>
    refine (log_tuple _).trans ?_
    have hitems : ((item :: items).map (itemOutput format)).map (·.log) =
        (item :: items).map (itemText fun v => format (.of v)) := by
      rw [List.map_map]
      exact List.map_congr_left fun v _ => log_itemOutput format v
    rw [hitems]
    rfl

theorem values_bindOutput_list (items : List Value) (type : ValueType) :
    (bindOutput format ⟨.list items, type⟩).values =
      (items.flatMap components).map Typed.of := by
  cases items with
  | nil => exact values_tuple _
  | cons item items =>
    refine (values_tuple _).trans ?_
    simp [List.flatMap_map, List.map_flatMap, values_itemOutput]

/-- A list in place of a bind directive is written after what is written before: its items in
brackets, or a null if there are none, with a question mark for each component in the text and the
literal of the component in the log. The components are the values, each declared with its own
type. -/
theorem renderTree_bind_list (r : Renderer) (d : Directive) (sample? : Option Tree)
    (before : Render) (available : Bool) (scope : Scope) (a : Rendered) (items : List Value)
    (type : ValueType) (hbefore : before available scope = .ok a)
    (hvalue : r.evalBind d a.scope = .ok ⟨.list items, type⟩) :
    ∃ output, Render.andThen before (r.renderTree (.bind d sample?)) available scope =
        .ok ⟨a.available, a.scope, output⟩ ∧
      output.text = a.output.text ++ groupText (items.map (itemText fun _ => "?")) ∧
      output.log = a.output.log ++ groupText (items.map (itemText fun v => r.formatter (.of v))) ∧
      output.values = a.output.values ++ (items.flatMap components).map .of := by
  refine ⟨a.output ++ bindOutput r.formatter ⟨.list items, type⟩, ?_, ?_, ?_, ?_⟩
  · simp [Render.andThen, hbefore, Renderer.renderTree, Renderer.renderBind, Render.keeping, hvalue,
      bind, Except.bind, pure, Except.pure]
  · rw [Output.text_append, text_bindOutput_list]
  · rw [Output.log_append, log_bindOutput_list]
  · rw [Output.values_append, values_bindOutput_list]

/-- A plain value, a pair with a null in it, a list and a triple. -/
def mixedItems : List Value :=
  [.int 1, .pair (.string "?") .null, .list [.int 2], .triple (.int 3) (.list []) (.int 4)]

/-- A list within the list is one value, and a null is declared without a type. -/
theorem renderTree_bind_list_mixed :
    ∃ scope output, scope = .ofList [("xs", .of (.list mixedItems))] ∧
      Compiler.standard.evalBind ⟨"xs", "/*xs*/", ⟨"", 0⟩⟩ scope = .ok (.of (.list mixedItems)) ∧
      Render.andThen (.content "x in ")
        (Compiler.standard.renderTree (.bind ⟨"xs", "/*xs*/", ⟨"", 0⟩⟩ none)) false scope =
          .ok ⟨true, scope, output⟩ ∧
      output.text = "x in (?, (?, ?), ?, (?, ?, ?))" ∧
      output.log = "x in (1, (\x27?\x27, NULL), (2), (3, (), 4))" ∧
      output.values.map (·.type) = [.int, .string, .any, .list, .int, .list, .int] := by
  have hvalue : Compiler.standard.evalBind ⟨"xs", "/*xs*/", ⟨"", 0⟩⟩
      (.ofList [("xs", .of (.list mixedItems))]) = .ok (.of (.list mixedItems)) := by
    with_unfolding_all rfl
  obtain ⟨output, hrender, htext, hlog, hvalues⟩ := renderTree_bind_list Compiler.standard _ none
    (.content "x in ") false _ _ mixedItems .list rfl hvalue
  refine ⟨_, output, rfl, hvalue, hrender, htext.trans ?_, hlog.trans ?_, ?_⟩
  · decide +kernel
  · decide +kernel
  · rw [hvalues]
    rfl

end TwoWaySql.Template
