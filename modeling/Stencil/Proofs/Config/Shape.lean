import Stencil.Proofs.Config.Draft

/-!
# The shape of a document

A document is written in one of two forms. As an object it has its members in any order; as an
array it has the values of the fields in their order, of which the last ones may be missing.
Either way it stands for a list of members, and these are added one after the other
(`Stencil.Config.toOption_ofJson_write`). Whatever the reading goes through in between, in
particular where a document is refused and why, is not seen in this.

So it is a matter of the members which documents are read alike. The members of the document
may stand in any order (`Stencil.Config.document?_perm`), and in all other objects those with
different keys may (`Stencil.Config.document?_reordered`).

A document is a configuration if and only if it is of the right shape
(`Stencil.Config.Shaped`): an object whose members are fields with values that they take, none
of them repeated, or an array of such values in the order of the fields. What it then sets is
told by its members (`Stencil.Config.Sets`). All other documents are refused. A field must not
be repeated. A key may be, in any other object, and there the last of its values counts.
-/

namespace Stencil

namespace Config

open Json (Value)
open Json.Value (laterItems)

/-! ### Documents that are arrays -/

/-- The items of an array, each with the name of its field. -/
def itemMembers (fields : List Field) (items : List Value) : Entries Value :=
  (fields.zip items).map fun p => (p.1.name, p.2)

/-- The names of the items are those of the first fields. -/
theorem map_fst_itemMembers (fields : List Field) (items : List Value) :
    (itemMembers fields items).map (·.1) = (fields.map Field.name).take items.length := by
  induction fields generalizing items with
  | nil => simp [itemMembers]
  | cons f fields ih =>
    cases items with
    | nil => rfl
    | cons v items => exact congrArg (f.name :: ·) (ih items)

namespace Draft

/-- The items of an array on top of what has been read, if there are fields for all of them. -/
def addItems? (d : Draft) (fields : List Field) (items : List Value) : Option Draft :=
  if items.length ≤ fields.length then (itemMembers fields items).foldlM add? d else none

theorem addItems?_nil (d : Draft) (fields : List Field) : d.addItems? fields [] = some d := by
  have hlength : ([] : List Value).length ≤ fields.length := Nat.zero_le _
  rw [addItems?, if_pos hlength, itemMembers, List.zip_nil_right]
  rfl

theorem addItems?_cons (d : Draft) (f : Field) (fields : List Field) (v : Value)
    (items : List Value) :
    d.addItems? (f :: fields) (v :: items) =
      (d.add? (f.name, v)).bind fun d => d.addItems? fields items := by
  simp only [addItems?, List.length_cons, Nat.add_le_add_iff_right]
  split
  · rfl
  · exact (Option.bind_fun_none _).symm

/-- The field of an item has not been given before. -/
theorem add?_name {d : Draft} {f : Field} (h : d.entry f = none) (v : Value) :
    d.add? (f.name, v) = d.put? f v := by
  have hname : Field.ofName? f.name = some f := Field.ofName?_eq_some_iff.mpr rfl
  have hnew : d.has f = false := by rw [has_eq, h, Option.isSome_none]
  simp [add?, hname, hnew]

end Draft

section Items

variable {fuel : Nat} {rest : Text} {d : Draft} {fields : List Field}

/-- The first item is taken off for the first field, and the others follow. -/
theorem readDraftItems_cons {first : Bool} {s : Text} {f : Field} {v : Value} {items : List Value}
    (hnext : Json.nextItem first s = .ok (some (v.write ++ (laterItems items ++ ']' :: rest))))
    (hfree : v.FloatFree) (hdepth : v.depth ≤ maxDepth - 1) (hfuel : v.write.length ≤ fuel)
    (hnew : d.entry f = none)
    (hlater : ∀ d', d.put? f v = some d' →
      (readDraftItems fuel fields false d' (laterItems items ++ ']' :: rest)).toOption =
        (d'.addItems? fields items).map fun d => (d, rest)) :
    (readDraftItems fuel (f :: fields) first d s).toOption =
      (d.addItems? (f :: fields) (v :: items)).map fun d => (d, rest) := by
  have hfield : (readField fuel d f (v.write ++ (laterItems items ++ ']' :: rest))).toOption =
      (d.put? f v).map fun d => (d, laterItems items ++ ']' :: rest) :=
    readField_write hfree hdepth hfuel d f
  rw [readDraftItems, hnext, Json.toOption_bind, Json.toOption_ok, Option.bind_some,
    Json.toOption_bind, hfield, Draft.addItems?_cons, Draft.add?_name hnew]
  cases hput : d.put? f v with
  | none => rfl
  | some d' => exact hlater d' hput

/-- The other fields are still to be given. -/
theorem entry_eq_none_of_put? {f : Field} (hfields : (f :: fields).Nodup)
    (hnew : ∀ g ∈ f :: fields, d.entry g = none) {v : Value} {d' : Draft}
    (hput : d.put? f v = some d') : ∀ g ∈ fields, d'.entry g = none := by
  intro g hg
  have hne : f ≠ g := fun heq => (List.nodup_cons.mp hfields).1 (heq ▸ hg)
  rw [Draft.entry_of_put? hput, if_neg hne]
  exact hnew g (List.mem_cons_of_mem f hg)

/-- What is behind the last field must be the end of the array. -/
theorem readDraftItems_later {items : List Value} (hfree : ∀ v ∈ items, v.FloatFree)
    (hdepth : ∀ v ∈ items, v.depth ≤ maxDepth - 1) (hfuel : ∀ v ∈ items, v.write.length ≤ fuel)
    (hfields : fields.Nodup) (hnew : ∀ f ∈ fields, d.entry f = none) :
    (readDraftItems fuel fields false d (laterItems items ++ ']' :: rest)).toOption =
      (d.addItems? fields items).map fun d => (d, rest) := by
  induction items generalizing fields d with
  | nil =>
    rw [Draft.addItems?_nil]
    cases fields <;> rfl
  | cons v items ih =>
    have htext : laterItems (v :: items) ++ ']' :: rest =
        ',' :: (v.write ++ (laterItems items ++ ']' :: rest)) := by
      simp [laterItems]
    rw [htext]
    cases fields with
    | nil => rfl
    | cons f fields =>
      rw [List.forall_mem_cons] at hfree hdepth hfuel
      refine readDraftItems_cons (Json.nextItem_later hfree.1 _) hfree.1 hdepth.1 hfuel.1
        (hnew f List.mem_cons_self) fun d' hput => ?_
      exact ih hfree.2 hdepth.2 hfuel.2 hfields.of_cons
        (entry_eq_none_of_put? hfields hnew hput)

/-- The first item stands where the array begins. -/
theorem readDraftItems_write {f : Field} {items : List Value} (hfree : ∀ v ∈ items, v.FloatFree)
    (hdepth : ∀ v ∈ items, v.depth ≤ maxDepth - 1) (hfuel : ∀ v ∈ items, v.write.length ≤ fuel)
    (hfields : (f :: fields).Nodup) (hnew : ∀ g ∈ f :: fields, d.entry g = none) :
    (readDraftItems fuel (f :: fields) true d (Value.writeItems items ++ ']' :: rest)).toOption =
      (d.addItems? (f :: fields) items).map fun d => (d, rest) := by
  cases items with
  | nil =>
    rw [Draft.addItems?_nil]
    rfl
  | cons v items =>
    rw [List.forall_mem_cons] at hfree hdepth hfuel
    rw [Value.writeItems_cons, List.append_assoc]
    refine readDraftItems_cons (Json.nextItem_first hfree.1 _) hfree.1 hdepth.1 hfuel.1
      (hnew f List.mem_cons_self) fun d' hput => ?_
    exact readDraftItems_later hfree.2 hdepth.2 hfuel.2 hfields.of_cons
      (entry_eq_none_of_put? hfields hnew hput)

end Items

/-- **A document that is an array** gives the fields their values in order, and is refused if it
goes on behind the last field. -/
theorem toOption_ofJson_array {items : List Value} (hfree : ∀ v ∈ items, v.FloatFree)
    (hdepth : (Value.array items).depth ≤ maxDepth) :
    (ofJson (Value.array items).write).toOption =
      (Draft.addItems? {} Field.all items).map Draft.finish := by
  have hdeep := Value.depthItems_le_iff.mp (Nat.le_of_succ_le_succ hdepth)
  have hshort : ∀ v ∈ items, v.write.length ≤ (Value.array items).write.length :=
    fun v hv => (Value.length_write_lt_of_mem_items hv).le
  have hdraft : (readDraft (Value.array items).write.length (Value.array items).write).toOption =
      (Draft.addItems? {} Field.all items).map fun d => (d, []) :=
    readDraftItems_write hfree hdeep hshort (by decide) (by decide)
  exact toOption_ofJson hdraft

/-! ### Documents of any kind -/

/-- What starts neither as an object nor as an array is refused. -/
theorem toOption_ofJson_scalar {c : Char} {s : Text} (hblank : Json.isBlank c = false)
    (hobject : c ≠ '{') (harray : c ≠ '[') : (ofJson (c :: s)).toOption = none := by
  refine toOption_ofJson (o := none) ?_
  rw [readDraft, Json.skipBlanks_cons hblank]
  split
  · next heq => exact absurd (List.cons.inj heq).1 hobject
  · next heq => exact absurd (List.cons.inj heq).1 harray
  · exact Json.toOption_refuse _ _

/-- The members that a document stands for, if it may stand for members. -/
def memberList? : Value → Option (Entries Value)
  | .object ms => some ms
  | .array items =>
    if items.length ≤ Field.all.length then some (itemMembers Field.all items) else none
  | _ => none

/-- **What a document is read as**: the configuration that its members make. -/
def document? (v : Value) : Option Config :=
  (memberList? v).bind fun ms => (ms.foldlM Draft.add? {}).map Draft.finish

theorem toOption_ofJson_write {v : Value} (hfree : v.FloatFree) (hdepth : v.depth ≤ maxDepth) :
    (ofJson v.write).toOption = document? v := by
  cases hfree with
  | null => exact toOption_ofJson_scalar rfl (by decide) (by decide)
  | bool b => cases b <;> exact toOption_ofJson_scalar rfl (by decide) (by decide)
  | integer n fits =>
    obtain ⟨c, s, hs, hc⟩ := Json.exists_ofInt_eq_cons n
    rw [Value.write, hs]
    exact toOption_ofJson_scalar hc.isBlank (hc.ne (by decide)) (hc.ne (by decide))
  | string s => exact toOption_ofJson_scalar rfl (by decide) (by decide)
  | array h =>
    rw [toOption_ofJson_array h hdepth, document?, memberList?, Draft.addItems?]
    split <;> rfl
  | object h => exact toOption_ofJson_object h hdepth

/-! ### What counts of the order -/

/-- Of a member only the name counts, and the value as it is read. -/
theorem Draft.add?_congr {v w : Value} (h : v.regularized = w.regularized) (d : Draft) (k : Text) :
    d.add? (k, v) = d.add? (k, w) := by
  have htakes (f : Field) : f.Takes v ↔ f.Takes w := by
    rw [← Field.takes_regularized_iff, h, Field.takes_regularized_iff]
  refine Option.ext fun d' => ?_
  simp only [add?_eq_some_iff, put?_eq_some_iff, htakes, h]

theorem Draft.foldlM_add?_congr {ms ns : Entries Value}
    (h : Value.regularizedMembers ms = Value.regularizedMembers ns) (d : Draft) :
    ms.foldlM add? d = ns.foldlM add? d := by
  induction ms generalizing ns d with
  | nil =>
    cases ns with
    | nil => rfl
    | cons n ns => cases h
  | cons m ms ih =>
    cases ns with
    | nil => cases h
    | cons n ns =>
      obtain ⟨k, v⟩ := m
      obtain ⟨l, w⟩ := n
      obtain ⟨hm, hms⟩ := List.cons.inj h
      obtain ⟨rfl, hvalue⟩ := Prod.mk.inj hm
      rw [List.foldlM_cons, List.foldlM_cons, add?_congr hvalue]
      exact congrArg _ (funext fun d => ih hms d)

theorem regularizedMembers_itemMembers (fields : List Field) (items : List Value) :
    Value.regularizedMembers (itemMembers fields items) =
      itemMembers fields (items.map Value.regularized) := by
  simp [Value.regularizedMembers_eq_map, itemMembers, List.zip_map_right]

/-- **The members of the document may stand in any order.** -/
theorem document?_perm {ms ns : Entries Value} (h : ms.Perm ns) :
    document? (.object ms) = document? (.object ns) :=
  congrArg (Option.map Draft.finish) (Draft.foldlM_add?_perm h)

/-- **Members with different keys may stand in any order**, in whatever object they are. -/
theorem document?_reordered {v w : Value} (h : v.Reordered w) : document? v = document? w := by
  induction h with
  | refl v => rfl
  | trans _ _ ihu ihv => exact ihu.trans ihv
  | swap before after h =>
    exact document?_perm ((List.Perm.swap _ _ after).append_left before)
  | @item before after v w h ih =>
    have hlength : (before ++ v :: after).length = (before ++ w :: after).length := by simp
    have hitems (d : Draft) : (itemMembers Field.all (before ++ v :: after)).foldlM Draft.add? d =
        (itemMembers Field.all (before ++ w :: after)).foldlM Draft.add? d := by
      refine Draft.foldlM_add?_congr ?_ d
      simp only [regularizedMembers_itemMembers, List.map_append, List.map_cons, h.regularized_eq]
    -- both arrays have fields for all of their items, or neither has
    simp only [document?, memberList?, hlength]
    split
    · exact congrArg (Option.map Draft.finish) (hitems {})
    · rfl
  | value before after k h ih =>
    refine congrArg (Option.map Draft.finish) (Draft.foldlM_add?_congr ?_ {})
    simp only [Value.regularizedMembers_append, Value.regularizedMembers, h.regularized_eq]

/-! ### The shape -/

/-- **A document of the right shape**, and the members that it stands for: an object whose
members are of the right shape, or an array of at most as many items as there are fields, each
of which its field takes. -/
inductive Shaped : Value → Entries Value → Prop
  /-- An object stands for its members. -/
  | object {ms : Entries Value} (h : WellShaped ms) : Shaped (.object ms) ms
  /-- An array stands for its items under the names of the fields, in their order. -/
  | array {items : List Value} (hlength : items.length ≤ Field.all.length)
    (htakes : ∀ p ∈ Field.all.zip items, p.1.Takes p.2) :
    Shaped (.array items) (itemMembers Field.all items)

/-- **What is set by members**: a text by its string, and the bindings by the last entry of each
name, with its value as it is read. What has no member, or `null`, is not set. -/
structure Sets (ms : Entries Value) (c : Config) : Prop where
  /-- The delimiter is a string among the members. -/
  delimiter : ∀ t, c.delimiter = some t ↔ (Field.delimiter.name, .string t) ∈ ms
  /-- The default is a string among the members. -/
  fallback : ∀ t, c.fallback = some t ↔ (Field.default.name, .string t) ∈ ms
  /-- A name is bound by its last entry in the object that is among the members. -/
  bindings : ∀ k w, c.bindings.get? k = some w ↔
    ∃ (bs : Entries Value) (v : Value),
      (Field.bindings.name, .object bs) ∈ ms ∧ bs.Last k v ∧ v.regularized = w

/-- Items of the right kinds are members of the right shape. -/
theorem wellShaped_itemMembers_iff {items : List Value} :
    WellShaped (itemMembers Field.all items) ↔ ∀ p ∈ Field.all.zip items, p.1.Takes p.2 := by
  have hnodup : ((itemMembers Field.all items).map (·.1)).Nodup := by
    rw [map_fst_itemMembers]
    have hnames : (Field.all.map Field.name).Nodup := by decide
    exact (List.take_sublist _ _).nodup hnames
  have htakes : (∀ m ∈ itemMembers Field.all items, ∃ f : Field, f.name = m.1 ∧ f.Takes m.2) ↔
      ∀ p ∈ Field.all.zip items, p.1.Takes p.2 := by
    rw [itemMembers, List.forall_mem_map]
    simp only [Field.name_injective.eq_iff, exists_eq_left]
  exact ⟨fun h => htakes.mp h.takes, fun h => ⟨hnodup, htakes.mpr h⟩⟩

theorem shaped_iff {v : Value} {ms : Entries Value} :
    Shaped v ms ↔ memberList? v = some ms ∧ WellShaped ms := by
  constructor
  · rintro (h | ⟨hlength, htakes⟩)
    · exact ⟨rfl, h⟩
    · exact ⟨if_pos hlength, wellShaped_itemMembers_iff.mpr htakes⟩
  · rintro ⟨hlist, h⟩
    cases v with
    | object ns =>
      cases hlist
      exact .object h
    | array items =>
      rw [memberList?] at hlist
      split at hlist
      · next hlength =>
        cases hlist
        exact .array hlength (wellShaped_itemMembers_iff.mp h)
      · cases hlist
    | _ => cases hlist

/-- A text that is set has been read as a string. -/
theorem join_eq_some_iff {o : Option (Option Text)} {t : Text} :
    o.join = some t ↔ o.map textValue = some (.string t) := by
  rcases o with _ | _ | s <;> simp [textValue]

/-- A binding that is set has been read as an entry of the bindings. -/
theorem get?_getD_eq_some_iff {o : Option (Dict Value)} {k : Text} {w : Value} :
    (o.getD ∅).get? k = some w ↔
      ∃ d : Dict Value, o.map (fun d => .object d.toList) = some (Value.object d.toList) ∧
        d.get? k = some w := by
  cases o with
  | none => simp
  | some d => simp [Dict.toList_injective.eq_iff]

/-- **What has been read of the members is set.** -/
theorem Draft.Of.sets {d : Draft} {ms : Entries Value} (h : d.Of ms) : Sets ms d.finish where
  delimiter := by
    intro t
    refine join_eq_some_iff.trans ((h.entry_eq_some_iff .delimiter _).trans ?_)
    simp only [Value.regularized_eq_string_iff, exists_eq_right]
  fallback := by
    intro t
    refine join_eq_some_iff.trans ((h.entry_eq_some_iff .default _).trans ?_)
    simp only [Value.regularized_eq_string_iff, exists_eq_right]
  bindings := by
    intro k w
    refine get?_getD_eq_some_iff.trans ?_
    constructor
    · rintro ⟨b, hb, hw⟩
      obtain ⟨u, hu, hread⟩ := (h.entry_eq_some_iff .bindings _).mp hb
      obtain ⟨bs, rfl, hbs⟩ := Value.regularized_eq_object_iff.mp hread
      obtain rfl : Dict.ofList (Value.regularizedMembers bs) = b := Dict.toList_injective hbs
      obtain ⟨v, hlast, hv⟩ := Value.get?_ofList_regularizedMembers.mp hw
      exact ⟨bs, v, hu, hlast, hv⟩
    · rintro ⟨bs, v, hbs, hlast, hv⟩
      exact ⟨Dict.ofList (Value.regularizedMembers bs),
        (h.entry_eq_some_iff .bindings _).mpr ⟨.object bs, hbs, rfl⟩,
        Value.get?_ofList_regularizedMembers.mpr ⟨v, hlast, hv⟩⟩

/-- A document of the right shape is read, and sets what its members say. -/
theorem Shaped.exists_document? {v : Value} {ms : Entries Value} (h : Shaped v ms) :
    ∃ c, document? v = some c ∧ Sets ms c := by
  obtain ⟨hlist, hms⟩ := shaped_iff.mp h
  obtain ⟨d, hd⟩ := Draft.exists_foldlM_add? hms
  refine ⟨d.finish, ?_, (Draft.of_foldlM_add? hd).sets⟩
  rw [document?, hlist, Option.bind_some, hd, Option.map_some]

/-- Nothing else is read. -/
theorem exists_shaped_of_document? {v : Value} {c : Config} (h : document? v = some c) :
    ∃ ms, Shaped v ms := by
  obtain ⟨ms, hlist, hread⟩ := Option.bind_eq_some_iff.mp h
  obtain ⟨d, hd, -⟩ := Option.map_eq_some_iff.mp hread
  exact ⟨ms, shaped_iff.mpr ⟨hlist, (Draft.of_foldlM_add? hd).wellShaped⟩⟩

section Written

variable {v : Value} (hfree : v.FloatFree) (hdepth : v.depth ≤ maxDepth)

include hfree hdepth

theorem ofJson_write_eq_ok_iff {c : Config} : ofJson v.write = .ok c ↔ document? v = some c := by
  rw [← toOption_ofJson_write hfree hdepth]
  cases ofJson v.write <;> simp [Except.toOption]

/-- What is not read is refused as a document. -/
theorem exists_ofJson_write_eq_error (h : document? v = none) :
    ∃ message, ofJson v.write = .error (.configuration message) := by
  rw [← toOption_ofJson_write hfree hdepth, ofJson] at h
  rw [ofJson]
  cases hread : readJson v.write with
  | ok c =>
    rw [hread] at h
    cases h
  | error halt => exact ⟨_, rfl⟩

theorem ofJson_write_congr {w : Value} (hfree' : w.FloatFree) (hdepth' : w.depth ≤ maxDepth)
    (h : document? v = document? w) (c : Config) :
    ofJson v.write = .ok c ↔ ofJson w.write = .ok c := by
  rw [ofJson_write_eq_ok_iff hfree hdepth, ofJson_write_eq_ok_iff hfree' hdepth', h]

end Written

/-- **The documents that are configurations**, among those without binary64 numbers that are
not nested too deeply: they are those of the right shape, and what they set is told by their
members. Any other document is refused. Neither the order of the members counts nor that of
members with different keys anywhere below, and of equal keys below the last one counts. -/
theorem ofJson_write_iff_shaped {v : Value} (hfree : v.FloatFree) (hdepth : v.depth ≤ maxDepth) :
    ((∃ c, ofJson v.write = .ok c) ↔ ∃ ms, Shaped v ms) ∧
      (∀ ms c, Shaped v ms → ofJson v.write = .ok c → Sets ms c) ∧
      ((∀ ms, ¬ Shaped v ms) → ∃ message, ofJson v.write = .error (.configuration message)) ∧
      (∀ ms ns, v = .object ms → ms.Perm ns →
        ∀ c, ofJson v.write = .ok c ↔ ofJson (Value.object ns).write = .ok c) ∧
      (∀ w, v.Reordered w → ∀ c, ofJson v.write = .ok c ↔ ofJson w.write = .ok c) ∧
      (∀ items, (Value.array items).regularized = .array (items.map Value.regularized)) ∧
      ∀ ms : Entries Value, ∃ d : Dict Value, (Value.object ms).regularized = .object d.toList ∧
        ∀ k w, d.get? k = some w ↔ ∃ u, ms.Last k u ∧ u.regularized = w := by
  refine ⟨⟨?_, ?_⟩, ?_, ?_, ?_, ?_, ?_, ?_⟩
  · -- what is read is of the right shape
    rintro ⟨c, hc⟩
    exact exists_shaped_of_document? ((ofJson_write_eq_ok_iff hfree hdepth).mp hc)
  · -- what is of the right shape is read
    rintro ⟨ms, hms⟩
    obtain ⟨c, hc, -⟩ := hms.exists_document?
    exact ⟨c, (ofJson_write_eq_ok_iff hfree hdepth).mpr hc⟩
  · -- only one configuration is read, so it is the one that sets what the members say
    intro ms c hms hc
    obtain ⟨c', hc', hsets⟩ := hms.exists_document?
    obtain rfl := Option.some.inj (hc'.symm.trans ((ofJson_write_eq_ok_iff hfree hdepth).mp hc))
    exact hsets
  · intro hshape
    refine exists_ofJson_write_eq_error hfree hdepth (Option.eq_none_iff_forall_not_mem.mpr ?_)
    intro c hc
    obtain ⟨ms, hms⟩ := exists_shaped_of_document? hc
    exact hshape ms hms
  · rintro ms ns rfl hperm
    exact ofJson_write_congr hfree hdepth ((Value.floatFree_object_perm hperm).mp hfree)
      (Value.depth_object_perm hperm ▸ hdepth) (document?_perm hperm)
  · intro w h
    exact ofJson_write_congr hfree hdepth (h.floatFree_iff.mp hfree) (h.depth_eq ▸ hdepth)
      (document?_reordered h)
  · intro items
    exact congrArg Value.array (Value.regularizedItems_eq_map items)
  · intro ms
    exact ⟨Dict.ofList (Value.regularizedMembers ms), rfl,
      fun k w => Value.get?_ofList_regularizedMembers⟩

/-- A document with its members out of order, a default that is `null`, and two keys that come
twice: one among the bindings and one in an object below. -/
def repeatedSample : Value :=
  .object [(Field.bindings.name, .object [(['a'], .null),
    (['b'], .object [(['x'], .bool true), (['y'], .array []), (['x'], .bool false)]),
    (['a'], .string ['1'])]), (Field.default.name, .null)]

theorem ofJson_write_repeatedSample :
    repeatedSample.FloatFree ∧ repeatedSample.depth ≤ maxDepth ∧
      ∃ c, ofJson repeatedSample.write = .ok c ∧ c.fallback = none ∧
        c.bindings.get? ['a'] = some (.string ['1']) ∧
        c.bindings.get? ['b'] = some (.object [(['x'], .bool false), (['y'], .array [])]) := by
  have hfree : repeatedSample.FloatFree := by simp [repeatedSample]
  have hdepth : repeatedSample.depth ≤ maxDepth := by decide
  obtain ⟨hread, hsets, -⟩ := ofJson_write_iff_shaped hfree hdepth
  have hshape : Shaped repeatedSample _ := .object
    { nodup := by decide
      takes := List.forall_mem_cons.mpr ⟨⟨.bindings, rfl, _, rfl⟩,
        List.forall_mem_singleton.mpr ⟨.default, rfl, .inl rfl⟩⟩ }
  obtain ⟨c, hc⟩ := hread.mpr ⟨_, hshape⟩
  have h := hsets _ c hshape hc
  refine ⟨hfree, hdepth, c, hc, ?_, ?_, ?_⟩
  · refine Option.eq_none_iff_forall_not_mem.mpr fun t ht => ?_
    have hname : Field.default.name ≠ Field.bindings.name := by decide
    simpa [hname] using (h.fallback t).mp ht
  · exact (h.bindings _ _).mpr
      ⟨_, _, List.mem_cons_self, ⟨[_, _], [], rfl, by simp⟩, rfl⟩
  · refine (h.bindings _ _).mpr ⟨_, _, List.mem_cons_self, ⟨[_], [_], rfl, by simp⟩, ?_⟩
    have hlt : ¬ (['y'] : Text) < ['x'] := by decide
    simp [Value.regularized, Value.regularizedMembers, Value.regularizedItems, Entries.collect,
      Entries.insert, hlt]

end Config

end Stencil
