import SchemaCompiler.Yaml.Untyped
import SchemaCompiler.Json.Record
import Mathlib.Tactic.SplitIfs

/-!
Contract: values read from text repeat no key.

Owns:
- `Json.Part`, the values inside a value, and `Json.DistinctKeys`;
- `Yaml.Decoding.Gives`, a property of every result of a decoding, with one law
  for each way of composing decodings;
- `Yaml.distinctKeys_of_parseJson?`.

Does not own: what is read from such a value.
-/

namespace SchemaCompiler

namespace Json

/-- The first value stands inside the second one, or is that value. -/
inductive Part (part : Json) : Json → Prop where
  | self : Part part part
  | item {items : List Json} {item : Json} (listed : item ∈ items) (inside : Part part item) :
      Part part (.array items)
  | entry {entries : Entries Json} {key : String} {content : Json}
      (stored : (key, content) ∈ entries) (inside : Part part content) :
      Part part (.object entries)

/-- No mapping inside the value has a key twice. -/
def DistinctKeys (value : Json) : Prop :=
  ∀ entries, Part (.object entries) value → (Entries.keys entries).Nodup

theorem DistinctKeys.entry {entries : Entries Json} {key : String} {content : Json}
    (distinct : DistinctKeys (.object entries)) (stored : (key, content) ∈ entries) :
    DistinctKeys content :=
  fun _ inside => distinct _ (.entry stored inside)

theorem DistinctKeys.item {items : List Json} {item : Json}
    (distinct : DistinctKeys (.array items)) (listed : item ∈ items) : DistinctKeys item :=
  fun _ inside => distinct _ (.item listed inside)

theorem DistinctKeys.keys {entries : Entries Json} (distinct : DistinctKeys (.object entries)) :
    (Entries.keys entries).Nodup :=
  distinct entries .self

theorem DistinctKeys.array {items : List Json} (each : ∀ item ∈ items, DistinctKeys item) :
    DistinctKeys (.array items) := by
  intro entries inside
  cases inside with
  | item listed inside => exact each _ listed entries inside

theorem DistinctKeys.object {entries : Entries Json} (keys : (Entries.keys entries).Nodup)
    (each : ∀ entry ∈ entries, DistinctKeys entry.2) : DistinctKeys (.object entries) := by
  intro inner inside
  cases inside with
  | self => exact keys
  | entry stored inside => exact each _ stored inner inside

/-- A field of a record with distinct keys has them, too. -/
theorem DistinctKeys.member {record value : Json} {key : String} {position : Nat}
    (distinct : record.DistinctKeys) (found : record.member? key position = some value) :
    value.DistinctKeys := by
  cases record with
  | object entries => exact distinct.entry (Entries.mem_of_find? found)
  | array items => exact distinct.item (List.mem_of_getElem? found)
  | null => cases found
  | bool flag => cases found
  | number numeral => cases found
  | string text => cases found

/-- True for values that hold no others. -/
def isLeaf : Json → Bool
  | .array _ | .object _ => false
  | _ => true

theorem DistinctKeys.leaf {value : Json} (leaf : value.isLeaf = true) : DistinctKeys value := by
  intro entries inside
  cases inside with
  | self => cases leaf
  | item => cases leaf
  | entry => cases leaf

end Json

namespace Yaml

theorem isLeaf_floatValue (value : Option Binary64) : (floatValue value).isLeaf = true := by
  cases value <;> rfl

theorem isLeaf_of_integerValue? {number : Int} {value : Json}
    (spelled : integerValue? number = some value) : value.isLeaf = true := by
  rw [integerValue?] at spelled
  split at spelled <;> cases spelled
  rfl

theorem isLeaf_of_plainValue? {text : String} {value : Json}
    (spelled : plainValue? text = some value) : value.isLeaf = true := by
  rw [plainValue?] at spelled
  split at spelled
  · cases spelled; rfl
  · split at spelled
    · cases spelled; rfl
    · dsimp only at spelled
      split at spelled
      · exact isLeaf_of_integerValue? spelled
      · split at spelled
        · cases spelled; rfl
        · split at spelled <;> cases spelled
          · exact isLeaf_floatValue _
          · rfl

theorem isLeaf_of_spelledValue? {scalar : Scalar} {value : Json}
    (spelled : scalar.spelledValue? = some value) : value.isLeaf = true := by
  rw [Scalar.spelledValue?] at spelled
  split at spelled
  · exact isLeaf_of_plainValue? spelled
  · cases spelled; rfl

/-- No tag and no spelling makes a scalar a collection. -/
theorem isLeaf_of_value? {scalar : Scalar} {value : Json}
    (spelled : scalar.value? = some value) : value.isLeaf = true := by
  rw [Scalar.value?] at spelled
  split at spelled
  · exact isLeaf_of_spelledValue? spelled
  · split_ifs at spelled
    · obtain ⟨flag, -, rfl⟩ := Option.map_eq_some_iff.1 spelled
      rfl
    · obtain ⟨number, -, fits⟩ := Option.bind_eq_some_iff.1 spelled
      exact isLeaf_of_integerValue? fits
    · obtain ⟨number, -, rfl⟩ := Option.map_eq_some_iff.1 spelled
      exact isLeaf_floatValue number
    · cases spelled; rfl
    · exact isLeaf_of_spelledValue? spelled
    · cases spelled; rfl

namespace Decoding

variable {ε α β : Type}

/-- Every result of a decoding satisfies `Post`, whatever was decoded before. -/
def Gives (decoding : Decoding ε α) (Post : α → Prop) : Prop :=
  ∀ document followed outcome, (decoding.run document).run followed = .ok outcome → Post outcome.1

theorem Gives.pure {Post : α → Prop} {result : α} (holds : Post result) :
    Gives (pure result : Decoding ε α) Post := by
  intro document followed outcome ran
  cases ran
  exact holds

theorem Gives.throw {Post : α → Prop} (failure : ε) :
    Gives (throw failure : Decoding ε α) Post := by
  intro document followed outcome ran
  cases ran

theorem Gives.bind {Mid : α → Prop} {Post : β → Prop} {first : Decoding ε α}
    {second : α → Decoding ε β} (gives : Gives first Mid)
    (each : ∀ result, Mid result → Gives (second result) Post) : Gives (first >>= second) Post := by
  intro document followed outcome ran
  simp only [ReaderT.run_bind, StateT.run_bind] at ran
  cases firstRan : (first.run document).run followed with
  | error failure =>
      rw [firstRan] at ran
      cases ran
  | ok middle =>
      rw [firstRan] at ran
      exact each middle.1 (gives _ _ _ firstRan) _ _ _ ran

theorem Gives.any (decoding : Decoding ε α) : Gives decoding fun _ => True :=
  fun _ _ _ _ => trivial

theorem Gives.mapM {Post : β → Prop} {items : List α} {each : α → Decoding ε β}
    (gives : ∀ item ∈ items, Gives (each item) Post) :
    Gives (items.mapM each) fun results => ∀ result ∈ results, Post result := by
  induction items with
  | nil => exact Gives.pure (by simp)
  | cons item rest inductionHypothesis =>
      rw [List.mapM_cons]
      refine (gives item List.mem_cons_self).bind fun head headHolds => ?_
      refine (inductionHypothesis fun other listed =>
        gives other (List.mem_cons_of_mem _ listed)).bind fun tail tailHolds => ?_
      exact Gives.pure (List.forall_mem_cons.2 ⟨headHolds, tailHolds⟩)

theorem gives_scalar (failure : ε) (scalar : Scalar) :
    Gives (match scalar.value? with
      | some value => pure value
      | none => throw failure : Decoding ε Json) Json.DistinctKeys := by
  split
  · rename_i value spelled
    exact Gives.pure (.leaf (isLeaf_of_value? spelled))
  · exact Gives.throw failure

/-- A collection with a custom tag is a fault. -/
theorem gives_untagged {Post : α → Prop} {tag : TagName} {failure : ε} {decoding : Decoding ε α}
    (gives : Gives decoding Post) :
    Gives (if isCustomTag tag then throw failure >>= fun (_ : PUnit) => decoding else decoding)
      Post := by
  split
  · exact Gives.bind (Gives.any _) fun _ _ => gives
  · exact gives

/-- Decoding gives values with distinct keys: the entries of a mapping are
collected by key, and what they hold was decoded with less nesting left. -/
theorem gives_value (failure : ε) (depth : Nat) (node : Node) :
    Gives (value failure depth node) Json.DistinctKeys := by
  induction depth generalizing node with
  | zero =>
      rw [value]
      refine (Gives.any _).bind fun found _ => ?_
      cases found with
      | scalar scalar => exact gives_scalar failure scalar
      | sequence tag items => exact gives_untagged (Gives.throw failure)
      | mapping tag entries => exact gives_untagged (Gives.throw failure)
      | «alias» slot => exact Gives.throw failure
      | cut => exact Gives.throw failure
  | succ depth inductionHypothesis =>
      rw [value]
      refine (Gives.any _).bind fun found _ => ?_
      cases found with
      | scalar scalar => exact gives_scalar failure scalar
      | sequence tag items =>
          refine gives_untagged ((Gives.mapM fun item _ => inductionHypothesis item).bind ?_)
          exact fun results each => Gives.pure (.array each)
      | mapping tag entries =>
          refine gives_untagged (Gives.bind (?decoded : Gives _ fun pairs : List (String × Json) =>
            ∀ pair ∈ pairs, pair.2.DistinctKeys) fun pairs each => ?collected)
          case decoded =>
            refine Gives.mapM fun entry _ => (Gives.any _).bind fun name _ => ?_
            exact (inductionHypothesis entry.2).bind fun content distinct => Gives.pure distinct
          case collected =>
            exact Gives.pure (.object (Entries.nodup_keys_ofList pairs) fun entry stored =>
              each entry (Entries.mem_of_mem_ofList stored))
      | «alias» slot => exact Gives.throw failure
      | cut => exact Gives.throw failure

end Decoding

/-- What a document is decoded to is its empty value, or a result of decoding
its root. -/
theorem YamlDocument.decode_eq_ok {ε α : Type} {document : YamlDocument} {failure : ε}
    {ofEmpty result : α} {read : Node → Decoding ε α}
    (decoded : document.decode failure ofEmpty read = .ok result) :
    result = ofEmpty ∨ ∃ root outcome,
      ((read root).run document).run 0 = .ok outcome ∧ outcome.1 = result := by
  obtain ⟨root, anchored, eventCount, complete⟩ := document
  cases root with
  | none =>
      cases complete with
      | false => cases decoded
      | true => exact Or.inl (Except.ok.inj decoded).symm
  | some root =>
      refine Or.inr ⟨root, ?_⟩
      rw [decode] at decoded
      change ((Prod.fst <$> ((read root).run _).run 0 : Except ε α) >>= _) = _ at decoded
      cases ran : ((read root).run ⟨root, anchored, eventCount, complete⟩).run 0 with
      | error fault =>
          rw [ran] at decoded
          cases decoded
      | ok outcome =>
          rw [ran] at decoded
          cases complete with
          | false => cases decoded
          | true => exact ⟨outcome, rfl, Except.ok.inj decoded⟩

/-- The value of a text repeats no key. -/
theorem distinctKeys_of_parseJson? {text : String} {value : Json}
    (parsed : parseJson? text = some value) : value.DistinctKeys := by
  rw [parseJson?, YamlDocument.toJson?] at parsed
  cases decoded : (YamlDocument.ofText text).decode () Json.null
      (Decoding.value () nestingLimit) with
  | error failure =>
      rw [decoded] at parsed
      cases parsed
  | ok result =>
      rw [decoded] at parsed
      obtain rfl : result = value := Option.some.inj parsed
      rcases YamlDocument.decode_eq_ok decoded with rfl | ⟨root, outcome, ran, rfl⟩
      · exact .leaf rfl
      · exact Decoding.gives_value () nestingLimit root _ _ _ ran

end Yaml

end SchemaCompiler
