import Mathlib.Data.List.Forall2
import RamlScaffold.Proofs.Code.Value
import RamlScaffold.Proofs.Document.Order
import RamlScaffold.Proofs.Route.Binding

/-!
The expression for the path of a request. Its value is the URI with the values of the arguments in
place of the placeholders: what is quoted is read back character by character, and every field of
the f-string is the name of one argument.
-/

namespace RamlScaffold

open Code (value?)
open Code.Within (Reads)
open Uri (Cut Holes weave)

def RouteParam.scope (params : List RouteParam) (values : List String) : Fields String :=
  (params.map (·.arg)).zip values

variable {params : List RouteParam} {values : List String}

theorem RouteParam.get?_scope (hdistinct : (params.map (·.arg)).Nodup)
    (hlength : values.length = params.length) {p : RouteParam} {value : String}
    (hmember : (p, value) ∈ params.zip values) :
    Fields.get? p.arg (scope params values) = some value := by
  have hkeys : Fields.keys (scope params values) = params.map (·.arg) := by
    rw [Fields.keys, scope, List.map_fst_zip (by simp [hlength])]
  rw [← Fields.mem_iff_get? (hkeys ▸ hdistinct), scope, List.zip_map_left]
  exact List.mem_map.mpr ⟨(p, value), hmember, rfl⟩

/-- The fields of an f-string are read as the values of the arguments. -/
theorem reads_fields {words : List String} (hargs : Code.Scope words (params.map (·.arg)))
    (hlength : values.length = params.length) :
    List.Forall₂ (fun text value : String =>
      Reads true (RouteParam.scope params values) .text text.toList .text value.toList)
      (params.map fun p => "\x7b" ++ p.arg ++ "\x7d") values := by
  rw [List.forall₂_map_left_iff, List.forall₂_iff_zip]
  refine ⟨hlength.symm, ?_⟩
  intro p value hmember
  have hparam : p ∈ params := (List.of_mem_zip hmember).1
  have hfield := Code.Within.reads_field (hargs.bare p.arg (List.mem_map_of_mem hparam))
    (RouteParam.get?_scope hargs.distinct hlength hmember)
  simpa using hfield

theorem length_ofResource (r : Resource) {head : List Char} {holes : Holes}
    (hcut : Cut r.uri.toList head holes) : (RouteParam.ofResource r).length = holes.length := by
  have hnames := RouteParam.names_ofResource r
  rw [hcut.names_eq] at hnames
  simpa using congrArg List.length hnames

theorem value?_pathExpression {r : Resource} {head : List Char} {holes : Holes}
    (hcut : Cut r.uri.toList head holes) (values : List String)
    (hlength : values.length = (RouteParam.ofResource r).length) :
    value? (RouteParam.scope (RouteParam.ofResource r) values)
        (pathExpression r.uri (RouteParam.ofResource r)) =
      some (.ofList (weave head values holes)) := by
  have hholes := length_ofResource r hcut
  unfold pathExpression
  split
  · next hnone =>
    have hzero : (RouteParam.ofResource r).length = 0 := by simpa using hnone
    obtain rfl : holes = [] := List.eq_nil_of_length_eq_zero (by omega)
    obtain rfl : values = [] := List.eq_nil_of_length_eq_zero (by omega)
    have hhead : r.uri.toList = weave head [] [] := hcut.spelled
    rw [Code.value?_quote, ← hhead, String.ofList_toList]
  · have hreads := Code.Within.reads_weave Code.Within.reads_formatChar head
      (reads_fields (RouteParam.scope_ofResource r) hlength) holes
    have hbody := Code.Within.bodyValue?_of_reads hreads
    dsimp only
    rw [value?, String.toList_ofList, hcut.split_eq, Uri.fill_layout _ _ (by simpa using hholes)]
    exact hbody

/-- The expression for a path denotes the URI. It fits on a line, is an f-string if there are
parameters and a plain literal otherwise, and for all values of the arguments its value is the URI
with each placeholder replaced by the value of its argument and all else unchanged; with the sample
values that is the path that the client's tests expect. -/
theorem pathExpression_denotes (r : Resource) :
    let params := RouteParam.ofResource r
    let expression := pathExpression r.uri params
    expression.toList.head? = some (if params.isEmpty then '\'' else 'f') ∧
    (∀ c ∈ expression.toList, c ≠ '\n' ∧ c ≠ '\r') ∧
    ∃ head holes, Cut r.uri.toList head holes ∧ params.length = holes.length ∧
      (∀ values : List String, values.length = params.length →
        value? (RouteParam.scope params values) expression =
          some (.ofList (weave head values holes))) ∧
      ∀ (group : GroupName) (version : String) (seen : List String),
        value? (RouteParam.scope params (params.map (·.converter.sampleText))) expression =
          some (Endpoint.ofResource group version seen r).clientTestPath := by
  intro params expression
  obtain ⟨head, holes, hcut⟩ := Uri.cut_exists r.uri.toList
  have hlength := length_ofResource r hcut
  have hsample := value?_pathExpression hcut (params.map (·.converter.sampleText))
    (by simp [params])
  refine ⟨?_, ?_, head, holes, hcut, hlength, ?_, ?_⟩
  · simp only [expression, pathExpression]
    split <;> simp_all [Code.quote]
  · intro c hc
    have hbreak := Code.not_isBreak_of_value? hsample c hc
    simp only [Code.Within.isBreak, Bool.or_eq_false_iff, beq_eq_false_iff_ne] at hbreak
    exact hbreak.1
  · intro values hvalues
    exact value?_pathExpression hcut values hvalues
  · intro group version seen
    have hpath : (Endpoint.ofResource group version seen r).clientTestPath =
        .ofList (weave head (params.map (·.converter.sampleText)) holes) :=
      hcut.substitute_eq (by simpa [params] using hlength)
    rw [hpath]
    exact hsample

/-- Quotes, backslashes, line breaks and braces, in the literals and in the values. -/
theorem pathExpression_denotes_stray :
    let r : Resource := ⟨"/it's\\\n\x7b\x7d/\x7b\x7bid\x7d\x7d/\x7bid\x7d\x7b", "", "", [], []⟩
    let expression := pathExpression r.uri (RouteParam.ofResource r)
    expression = "f'/it\\'s\\\\\\n\x7b\x7b\x7d\x7d/\x7bid\x7d\x7d\x7d/\x7bid_1\x7d\x7b\x7b'" ∧
    value? (RouteParam.scope (RouteParam.ofResource r) ["\x7bx\x7d", "'"]) expression =
      some "/it's\\\n\x7b\x7d/\x7bx\x7d\x7d/'\x7b" := by
  intro r expression
  obtain ⟨-, -, head, holes, hcut, hlength, hvalues, -⟩ := pathExpression_denotes r
  have htwo : (RouteParam.ofResource r).length = 2 := by decide
  have hfilled : Uri.substitute r.uri ["\x7bx\x7d", "'"] =
      .ofList (weave head ["\x7bx\x7d", "'"] holes) :=
    hcut.substitute_eq (htwo.symm.trans hlength)
  refine ⟨by decide, ?_⟩
  rw [hvalues ["\x7bx\x7d", "'"] htwo.symm, ← hfilled]
  decide

end RamlScaffold
