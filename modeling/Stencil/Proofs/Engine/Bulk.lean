import Stencil.Proofs.Engine.Setting

/-!
# Binding many entries

Entries are bound one after the other, up to the first that is refused. What stands in front
of that one stays bound, and what stands behind it is never looked at. So a failure leaves
an engine on which half of the work is done, and if a name is repeated, the value that it is
left with is that of its last entry *in front of the one that is refused*
(`Stencil.Engine.Overlays`). The work on a copy shows nothing of this: it fails for the same
entry, and the copy is gone.

Nothing is remembered of where a list began. Two lists, the second of which is bound only if
nothing in the first is refused, are bound as one list is
(`Stencil.Engine.bindEach_append`), and so are any number of lists
(`Stencil.Engine.bindParts_eq`).
-/

namespace Stencil

namespace Entries

variable {before : Entries Text} {entry : Text × Text}
  (hbefore : ∀ d ∈ before, hasUnescapedToken d.2 = false)
  (hentry : hasUnescapedToken entry.2 = true) (after : Entries Text)

include hbefore hentry

/-- What is accepted stands in front of the first entry that is refused. -/
theorem accepted_append_cons : accepted (before ++ entry :: after) = before := by
  have hpass : ∀ d ∈ before, (!hasUnescapedToken d.2) = true := by
    intro d hd
    rw [hbefore d hd]
    rfl
  have hstop : accepted (entry :: after) = [] := accepted_cons_of_refused hentry after
  rw [accepted, List.takeWhile_append_of_pos hpass]
  exact (congrArg (before ++ ·) hstop).trans (List.append_nil before)

theorem refused?_append_cons : refused? (before ++ entry :: after) = some entry := by
  refine List.find?_eq_some_iff_append.mpr ⟨hentry, before, after, rfl, fun d hd => ?_⟩
  rw [hbefore d hd]
  rfl

end Entries

namespace Engine

variable {e e' : Engine} {es : Entries Text}

/-- **Entries on top of what an engine has bound**: of equal names the last entry wins, and
nothing else changes. -/
structure Overlays (e : Engine) (es : Entries Text) (e' : Engine) : Prop where
  /-- The fragments stay. -/
  fragments : e'.fragments = e.fragments
  /-- The delimiter stays. -/
  delimiter : e'.delimiter = e.delimiter
  /-- The default stays. -/
  fallback : e'.fallback = e.fallback
  /-- A name with an entry has the value of the last one. -/
  bound : ∀ k v, es.Last k v → e'.binding k = some v
  /-- A name without an entry keeps its value, or has none as before. -/
  kept : ∀ k, (∀ entry ∈ es, entry.1 ≠ k) → e'.binding k = e.binding k

/-- **There is one engine with the entries on top.** -/
theorem overlays_iff :
    e.Overlays es e' ↔ e' = { e with bindings := e.bindings.overlay es } := by
  constructor
  · intro h
    refine ext_binding h.fragments h.delimiter h.fallback fun k => ?_
    rcases es.last_or_notMem k with ⟨v, hlast⟩ | hk
    · exact (h.bound k v hlast).trans (Dict.get?_overlay_of_last hlast e.bindings).symm
    · exact (h.kept k hk).trans (Dict.get?_overlay_of_notMem hk e.bindings).symm
  · rintro rfl
    exact ⟨rfl, rfl, rfl, fun k v hlast => Dict.get?_overlay_of_last hlast e.bindings,
      fun k hk => Dict.get?_overlay_of_notMem hk e.bindings⟩

/-! ### One list after the other -/

/-- Bind lists of entries one after the other, up to the first that fails. -/
def bindParts (e : Engine) : List (Entries Text) → Engine × Except Fault Unit
  | [] => (e, .ok ())
  | part :: parts =>
    match e.bindEach part with
    | (e, .ok ()) => e.bindParts parts
    | (e, .error fault) => (e, .error fault)

/-- **Two lists are bound as one**, the second only if nothing in the first is refused. -/
theorem bindEach_append (e : Engine) (es fs : Entries Text) :
    e.bindEach (es ++ fs) = match e.bindEach es with
      | (e, .ok ()) => e.bindEach fs
      | (e, .error fault) => (e, .error fault) := by
  induction es generalizing e with
  | nil => rfl
  | cons entry es ih =>
    obtain ⟨name, value⟩ := entry
    rw [List.cons_append, bindEach, bindEach]
    cases e.bind name value with
    | ok e => exact ih e
    | error fault => rfl

theorem bindAll_append (e : Engine) (es fs : Entries Text) :
    e.bindAll (es ++ fs) = e.bindAll es >>= fun e => e.bindAll fs := by
  rw [bindAll, bindEach_append, bindAll]
  rcases e.bindEach es with ⟨e', _ | _⟩
  · rfl
  · rfl

/-- **Any cut of a list** into parts that are bound one after the other leaves the same
engine, and answers the same. -/
theorem bindParts_eq (e : Engine) (parts : List (Entries Text)) :
    e.bindParts parts = e.bindEach parts.flatten := by
  induction parts generalizing e with
  | nil => rfl
  | cons part parts ih =>
    rw [bindParts, List.flatten_cons, bindEach_append]
    split
    · exact ih _
    · rfl

theorem foldlM_bindAll (e : Engine) (parts : List (Entries Text)) :
    parts.foldlM bindAll e = e.bindAll parts.flatten := by
  induction parts generalizing e with
  | nil => rfl
  | cons part parts ih =>
    rw [List.foldlM_cons, List.flatten_cons, bindAll_append]
    exact congrArg (e.bindAll part >>= ·) (funext ih)

/-! ### The outcome -/

/-- **What binding many entries does.** If nothing is refused, all entries are on top of what
was bound, and a copy that they are bound on comes out the same. Otherwise the entries in
front of the first that is refused are, the answer is the value of that one, on the engine
itself and on a copy, and what stands behind it does not matter. However the list is cut
into parts that are bound one after the other, up to the first that fails, the engine and
the answer are the same. -/
theorem bindEach_up_to_first_refused (e : Engine) (es : Entries Text) :
    ((∀ entry ∈ es, hasUnescapedToken entry.2 = false) →
      ∃ e', e.Overlays es e' ∧ e.bindEach es = (e', .ok ()) ∧ e.bindAll es = .ok e') ∧
    (∀ before k v after, es = before ++ (k, v) :: after →
      (∀ entry ∈ before, hasUnescapedToken entry.2 = false) → hasUnescapedToken v = true →
      (∃ e', e.Overlays before e' ∧ e.bindEach es = (e', .error (.unescapedValue v))) ∧
        e.bindAll es = .error (.unescapedValue v) ∧
        ∀ later, e.bindEach (before ++ (k, v) :: later) = e.bindEach es) ∧
    ∀ parts : List (Entries Text), parts.flatten = es →
      e.bindParts parts = e.bindEach es ∧ parts.foldlM bindAll e = e.bindAll es := by
  refine ⟨fun h => ?_, ?_, ?_⟩
  · have hnone : es.refused? = none := Entries.refused?_eq_none_iff.mpr h
    refine ⟨_, overlays_iff.mpr rfl, ?_, bindAll_eq_ok_iff.mpr ⟨h, rfl⟩⟩
    rw [bindEach_eq, hnone, Entries.accepted_of_refused?_eq_none hnone]
  · rintro before k v after rfl hbefore hv
    have hentry : hasUnescapedToken (k, v).2 = true := hv
    have heach (later : Entries Text) : e.bindEach (before ++ (k, v) :: later) =
        ({ e with bindings := e.bindings.overlay before }, .error (.unescapedValue v)) := by
      rw [bindEach_eq, Entries.accepted_append_cons hbefore hentry,
        Entries.refused?_append_cons hbefore hentry]
    refine ⟨⟨_, overlays_iff.mpr rfl, heach after⟩, ?_, fun later => ?_⟩
    · rw [bindAll_eq, Entries.refused?_append_cons hbefore hentry]
    · rw [heach, heach]
  · rintro parts rfl
    exact ⟨bindParts_eq e parts, foldlM_bindAll e parts⟩

/-- The name `a` has three entries, and the second one wins: the third stands behind the entry
that is refused. In two parts, cut behind the first entry, the engine comes out the same. -/
theorem bindEach_up_to_first_refused_repeated :
    let e : Engine := ⟨[], ['\n'], (∅ : Dict Text).insert ['z'] ['0'], none⟩
    let before : Entries Text :=
      [(['a'], ['1']), (['b'], ['\\', '$', '{', 'y', '}']), (['a'], ['2'])]
    let asking : Text := ['$', '{', 'y', '}']
    let es := before ++ (['c'], asking) :: [(['a'], ['3'])]
    ∃ e', e.bindEach es = (e', .error (.unescapedValue asking)) ∧
      e'.binding ['a'] = some ['2'] ∧ e'.binding ['c'] = none ∧ e'.binding ['z'] = some ['0'] ∧
      e.bindParts [es.take 1, es.drop 1] = (e', .error (.unescapedValue asking)) := by
  intro e before asking es
  obtain ⟨-, hrefused, hparts⟩ := bindEach_up_to_first_refused e es
  obtain ⟨⟨e', hoverlays, heach⟩, -, -⟩ :=
    hrefused before ['c'] asking [(['a'], ['3'])] rfl (by decide +kernel) (by decide +kernel)
  refine ⟨e', heach, hoverlays.bound ['a'] ['2'] ⟨before.take 2, [], rfl, nofun⟩, ?_, ?_, ?_⟩
  · rw [hoverlays.kept ['c'] (by decide)]
    rfl
  · rw [hoverlays.kept ['z'] (by decide)]
    rfl
  · rw [(hparts [es.take 1, es.drop 1] rfl).1, heach]

end Engine

end Stencil
