import Stencil.Proofs.Config.Apply
import Stencil.Proofs.Json.Slashes

/-!
# Lists and objects as values

A list or an object of a configuration is bound as its compact JSON text, and this text is
checked as any other. What a string or a key inside of it says is then not what the one who
wrote it may have meant. An opener in a string need not be closed in the string: any closing
brace that follows in the text closes it, those of the JSON syntax included. And it cannot be
escaped in the string, because the backslashes are doubled when the string is written. So a
list or an object is refused exactly when its text has an opener with a closing brace
anywhere behind it, and no number of backslashes in front of an opener changes this
(`Stencil.Config.collection_refused_iff`).
-/

namespace Stencil

open Piece

/-- A value that is a list or an object. -/
def Json.Value.IsCollection : Json.Value → Prop
  | .array _ => True
  | .object _ => True
  | _ => False

/-- A collection stays one when backslashes inside of it are changed. -/
theorem Json.Value.Reslashed.isCollection {v w : Json.Value} (h : v.Reslashed w)
    (hv : v.IsCollection) : w.IsCollection := by
  induction h with
  | refl v => exact hv
  | string _ => exact hv.elim
  | item _ _ _ _ => trivial
  | value _ _ _ _ => trivial
  | key _ _ _ => trivial
  | trans _ _ ih ih' => exact ih' (ih hv)

namespace Config

/-- A configuration with one binding and no default. -/
def single (delimiter : Option Text) (k : Text) (v : Json.Value) : Config :=
  ⟨delimiter, none, (∅ : Dict Json.Value).insert k v⟩

section Single

variable {delimiter : Option Text} {k : Text} {v : Json.Value}

theorem get?_bindings_single (l : Text) :
    (single delimiter k v).bindings.get? l = if k = l then some v else none := by
  rw [single, Dict.get?_insert, Dict.get?_empty]

/-- One binding is let in if its text has no unescaped token. -/
theorem inert_single_iff :
    (single delimiter k v).Inert ↔ hasUnescapedToken (bindingText v) = false := by
  constructor
  · intro h
    refine h.bindings k v ?_
    rw [get?_bindings_single, if_pos rfl]
  · intro h
    refine ⟨nofun, fun l w hw => ?_⟩
    rw [get?_bindings_single] at hw
    split at hw
    · cases hw
      exact h
    · cases hw

theorem apply_single_ok_iff {e : Engine} :
    (∃ e', (single delimiter k v).apply e = .ok e') ↔
      hasUnescapedToken (bindingText v) = false := by
  simp only [apply_eq_ok_iff_inert, inert_single_iff, exists_and_left, exists_eq, and_true]

/-- One binding is refused with its text. -/
theorem apply_single_error_iff {e : Engine} :
    (single delimiter k v).apply e = .error (.unescapedValue (bindingText v)) ↔
      hasUnescapedToken (bindingText v) = true := by
  constructor
  · intro h
    rw [← Bool.not_eq_false]
    intro hinert
    have hok : ∃ e', (single delimiter k v).apply e = .ok e' := apply_single_ok_iff.mpr hinert
    obtain ⟨e', he'⟩ := hok
    rw [h] at he'
    cases he'
  · intro h
    have hbinding : (single delimiter k v).bindings.get? k = some v := by
      rw [get?_bindings_single, if_pos rfl]
    refine apply_eq_error_iff.mpr (.binding nofun hbinding h fun l w hlt hw => ?_)
    -- there is no other name, let alone a smaller one
    have hne : k ≠ l := by
      rintro rfl
      exact Entries.lt_irrefl k hlt
    rw [get?_bindings_single, if_neg hne] at hw
    cases hw

end Single

/-- A collection is bound as its compact text. -/
theorem bindingText_of_isCollection {v : Json.Value} (hv : v.IsCollection) :
    bindingText v = v.write := by
  cases v with
  | array items => rfl
  | object members => rfl
  | _ => exact hv.elim

/-- **A list or an object cannot be escaped.** As the only binding of a configuration without
a default it is refused, with its compact text, exactly when an opener in this text has a
closing brace behind it, and let in otherwise; for an object, as soon as there is an opener.
With other numbers of backslashes in front of the openers in its strings and keys, at any
depth, it is refused no sooner and no later. -/
theorem collection_refused_iff {v : Json.Value} (hv : v.IsCollection) (delimiter : Option Text)
    (k : Text) (e : Engine) :
    ((single delimiter k v).apply e = .error (.unescapedValue v.write) ↔ HasClosed v.write) ∧
      ((∃ e', (single delimiter k v).apply e = .ok e') ↔ ¬ HasClosed v.write) ∧
      (∀ members, v = .object members → (HasClosed v.write ↔ HasOpening v.write)) ∧
      ∀ w, v.Reslashed w →
        ((single delimiter k w).apply e = .error (.unescapedValue w.write) ↔
          (single delimiter k v).apply e = .error (.unescapedValue v.write)) := by
  have hrefused {w : Json.Value} (hw : w.IsCollection) :
      (single delimiter k w).apply e = .error (.unescapedValue w.write) ↔ HasClosed w.write := by
    rw [← bindingText_of_isCollection hw, apply_single_error_iff, bindingText_of_isCollection hw]
    exact w.paired_write.hasUnescapedToken_iff
  refine ⟨hrefused hv, ?_, ?_, fun w hreslashed => ?_⟩
  · rw [apply_single_ok_iff, bindingText_of_isCollection hv, ← Bool.not_eq_true,
      v.paired_write.hasUnescapedToken_iff]
  · rintro members rfl
    exact Json.Value.hasClosed_object_iff
  · rw [hrefused (hreslashed.isCollection hv), hrefused hv]
    exact hreslashed.alike.closed.symm

/-- The opener in the string is closed by the brace of the empty object behind it, however many
backslashes stand in front of it. With the object in front of the string nothing closes it. -/
theorem collection_refused_iff_brace_of_object :
    let opened (n : Nat) : Json.Value := .string (slashes n ++ ['$', '{', 'a'])
    let e := Engine.ofFragments []
    (∀ n, let v : Json.Value := .array [opened n, .object []]
      v.IsCollection ∧ (single none ['k'] v).apply e = .error (.unescapedValue v.write)) ∧
      ∃ e', (single none ['k'] (.array [.object [], opened 0])).apply e = .ok e' := by
  intro opened e
  constructor
  · intro n v
    obtain ⟨hrefused, -, -, hreslashed⟩ :=
      collection_refused_iff (v := .array [opened 0, .object []]) trivial none ['k'] e
    have hclosed : HasClosed (Json.Value.array [opened 0, .object []]).write :=
      ⟨['[', '"'], ['a', '"', ',', '{', '}', ']'], rfl, by decide⟩
    have hsame : (Json.Value.array [opened 0, .object []]).Reslashed v :=
      .item [] [.object []] (.string (.mk [] ['a'] 0 n))
    exact ⟨trivial, (hreslashed v hsame).mpr (hrefused.mpr hclosed)⟩
  · obtain ⟨-, hok, -⟩ :=
      collection_refused_iff (v := .array [.object [], opened 0]) trivial none ['k'] e
    rw [hok, ← (Json.Value.paired_write _).hasUnescapedToken_iff]
    decide +kernel

end Config

end Stencil
