import RamlScaffold.Proofs.Spec.Resources

/-!
Keys without a meaning. A description is built from a few keys at the root and from others in each
resource; keys that begin with a slash lead to resources at both levels. An entry under any other
key can stand anywhere in these mappings and hold anything, even what looks like a resource or a
method: the description is the same without it.
-/

namespace RamlScaffold

theorem Fields.get?_insert {α : Type} {key k : String} (hother : k ≠ key) (before after : Fields α)
    (value : α) : get? k (before ++ (key, value) :: after) = get? k (before ++ after) := by
  induction before with
  | nil => rw [List.nil_append, List.nil_append, get?_cons, if_neg hother]
  | cons entry before ih =>
    rw [List.cons_append, List.cons_append, get?_cons, get?_cons, ih]

namespace Spec

def isRootKey (key : String) : Bool :=
  ["title", "version", "baseUri", "description", "mediaType", "protocols", "types", "schemas",
    "securitySchemes", "traits"].contains key

def isOwnKey (key : String) : Bool :=
  ["displayName", "description", "uriParameters"].contains key || Verb.isNamed key

/-- The second mapping is the first one with one more entry, in it or in a resource at any depth.
The key of the entry begins with no slash and is not among those with a meaning where it stands;
these are given by `read` for the mapping itself. -/
inductive Extended : (read : String → Bool) → Fields Value → Fields Value → Prop where
  | here {read : String → Bool} {key : String} (before after : Fields Value) (value : Value)
      (hslash : key.toList.head? ≠ some '/') (hunread : read key = false) :
      Extended read (before ++ after) (before ++ (key, value) :: after)
  | deeper {read : String → Bool} {key : String} (before after : Fields Value)
      {inner inner' : Fields Value} (hslash : key.toList.head? = some '/')
      (hinner : Extended isOwnKey inner inner') :
      Extended read (before ++ (key, .map inner) :: after) (before ++ (key, .map inner') :: after)

variable {read : String → Bool} {fields fields' : Fields Value}

/-- A key with a meaning has the same value with and without the entry. -/
theorem Extended.get? (hextended : Extended read fields fields') {k : String}
    (hread : read k = true) (hslash : k.toList.head? ≠ some '/') :
    Fields.get? k fields' = Fields.get? k fields := by
  cases hextended with
  | here before after value _ hunread =>
    refine Fields.get?_insert ?_ before after value
    rintro rfl
    rw [hread] at hunread
    cases hunread
  | deeper before after hkey _ =>
    have hother : k ≠ _ := fun hsame => hslash (hsame ▸ hkey)
    rw [Fields.get?_insert hother, Fields.get?_insert hother]

/-- No verb begins with a slash. -/
theorem parse?_of_slash {key : String} (hslash : key.toList.head? = some '/') :
    Verb.parse? key = none := by
  cases hverb : Verb.parse? key with
  | none => rfl
  | some verb =>
    have hlower := congrArg (fun s => s.toList.head?) (Verb.lower_of_parse? hverb)
    simp only [Text.lowerAscii, String.toList_ofList, List.head?_map, hslash] at hlower
    cases verb <;> cases hlower

theorem methodsOf_insert (mediaType : String) {key : String} (hverb : Verb.parse? key = none)
    (before after : Fields Value) (value : Value) :
    methodsOf mediaType (before ++ (key, value) :: after) =
      methodsOf mediaType (before ++ after) := by
  simp [methodsOf, List.filterMap_append, hverb]

theorem Extended.methodsOf (hextended : Extended isOwnKey fields fields') (mediaType : String) :
    methodsOf mediaType fields' = methodsOf mediaType fields := by
  cases hextended with
  | @here _ key before after value _ hunread =>
    refine methodsOf_insert mediaType ?_ before after value
    rw [isOwnKey, Bool.or_eq_false_iff, ← Verb.isSome_parse?] at hunread
    simpa using hunread.2
  | deeper before after hkey _ =>
    have hverb := parse?_of_slash hkey
    rw [methodsOf_insert mediaType hverb, methodsOf_insert mediaType hverb]

theorem Extended.resourceOf (hextended : Extended isOwnKey fields fields')
    (mediaType uri key : String) :
    resourceOf mediaType uri key fields' = resourceOf mediaType uri key fields := by
  simp (disch := decide) only [Spec.resourceOf, hextended.methodsOf, hextended.get?]

/-- The resources do not change: the induction leads down to the mapping that has the entry. -/
theorem Extended.resourcesOf (hextended : Extended read fields fields')
    (mediaType parent : String) :
    resourcesOf mediaType parent fields' = resourcesOf mediaType parent fields := by
  induction hextended generalizing parent with
  | @here _ key before after value hslash _ =>
    have hnone : resourcesUnder mediaType parent (key, value) = [] := by
      rw [resourcesUnder, if_neg]
      rwa [isResourceKey_iff]
    simp only [resourcesOf_eq_flatMap, List.flatMap_append, List.flatMap_cons, hnone,
      List.nil_append]
  | @deeper _ key before after inner inner' _ hinner ih =>
    have hunder : resourcesUnder mediaType parent (key, .map inner') =
        resourcesUnder mediaType parent (key, .map inner) := by
      simp only [resourcesUnder, Value.fields?, Option.getD_some, resourcesIn, ih,
        hinner.resourceOf]
    simp only [resourcesOf_eq_flatMap, List.flatMap_append, List.flatMap_cons, hunder]

/-- An entry whose key has no meaning where it stands changes nothing, whatever its value. It may
stand anywhere at the root or in a resource at any depth, as long as its key begins with no
slash. -/
theorem unread_keys_inert {root root' : Fields Value} (hextended : Extended isRootKey root root') :
    ofFields root' = ofFields root := by
  unfold ofFields
  -- Each key that is looked up is one of the root, and none of them begins with a slash.
  simp (disch := decide) only [hextended.resourcesOf, hextended.get?]

/-- The entry stands two resources deep and holds what would be a resource and a method elsewhere;
its key is a verb but for one letter. -/
theorem unread_keys_inert_nested :
    let looksRead : Value := .map [("/d", .map [("get", .null)]), ("get", .text "no method")]
    let root (inner : Fields Value) : Fields Value :=
      [("title", .text "T"), ("/a", .map [("get", .null), ("/b", .map inner)])]
    let without := root [("PUT", .null), ("/c", .null)]
    let withEntry := root [("PUT", .null), ("gets", looksRead), ("/c", .null)]
    Extended isRootKey without withEntry ∧ ofFields withEntry = ofFields without := by
  intro looksRead root without withEntry
  have hentry : Extended isOwnKey [("PUT", .null), ("/c", .null)]
      [("PUT", .null), ("gets", looksRead), ("/c", .null)] :=
    .here [("PUT", .null)] [("/c", .null)] looksRead (by decide) (by decide)
  have hextended : Extended isRootKey without withEntry :=
    .deeper [("title", .text "T")] [] (by decide) (.deeper [("get", .null)] [] (by decide) hentry)
  exact ⟨hextended, unread_keys_inert hextended⟩

end Spec

end RamlScaffold
