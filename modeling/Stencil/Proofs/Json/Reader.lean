import Stencil.Proofs.Json.Number
import Stencil.Proofs.Json.Printer
import Stencil.Proofs.Json.Value

/-!
# Values read back

What is written for a value is read as the value with its keys in order
(`Stencil.Json.readsBack_readValue`), if it has no binary64 number, is not nested too deeply
and is followed by what follows a value in a document.

The collections carry the proof. The elements of a list are read by one reader, so it is
enough that this reader gives each element back (`Stencil.Json.readItems_written`). The
members of an object are put on top of each other, and the same loop reads nested objects,
the bindings and the document itself. Not every member of a document can be added, so the
loop is compared with a fold that may fail (`Stencil.Json.readMembers_written`); which
problem a reader stops with, and where, is left out by looking only at `Except.toOption`.

A reader decides by the first character that is not blank. What is written has no blanks
between its parts, and a number starts with a minus sign or a digit and so is taken for
nothing else.
-/

namespace Stencil

namespace Json

open Value

/-! ### Steps of a reader -/

/-- A step that fails ends the reading, whatever would follow. -/
theorem toOption_bind {α β : Type} (x : Except Halt α) (f : α → Except Halt β) :
    (x >>= f).toOption = x.toOption.bind fun a => (f a).toOption := by
  cases x <;> rfl

/-- What is read may be put into something else. -/
theorem toOption_bind_map {α β : Type} {x : Except Halt (α × Text)} {o : Option α} {rest : Text}
    (h : x.toOption = o.map fun a => (a, rest)) (f : α → β) :
    (x >>= fun r => .ok (f r.1, r.2)).toOption = (o.map f).map fun b => (b, rest) := by
  rw [toOption_bind, h]
  cases o <;> rfl

theorem toOption_ok {α : Type} (a : α) : (Except.ok a : Except Halt α).toOption = some a := rfl

theorem eq_ok_of_toOption {ε α : Type} {x : Except ε α} {a : α} (h : x.toOption = some a) :
    x = .ok a := by
  cases x with
  | error e => cases h
  | ok b => rw [Option.some.inj h]

/-- A string is read back from behind its opening quote. -/
theorem readQuoted_written (s rest : Text) :
    readQuoted (s.flatMap escapeChar ++ '"' :: rest) = .ok (s, rest) := by
  rw [readQuoted, unquote?_written]

/-! ### How a value starts -/

/-- **The start of a number**: a minus sign or a digit. -/
def StartsNumber (c : Char) : Prop := c = '-' ∨ c.isDigit = true

instance : DecidablePred StartsNumber := fun _ => inferInstanceAs (Decidable (_ ∨ _))

theorem exists_ofInt_eq_cons (n : Int) : ∃ c s, Text.ofInt n = c :: s ∧ StartsNumber c := by
  cases n with
  | ofNat n =>
    obtain ⟨d, ds, hds, hdigit⟩ := Text.exists_ofNat_eq_cons n
    exact ⟨d, ds, hds, .inr hdigit⟩
  | negSucc n => exact ⟨'-', Text.ofNat (n + 1), rfl, .inl rfl⟩

namespace StartsNumber

variable {c : Char} (hc : StartsNumber c)

include hc

/-- Nothing that starts otherwise is taken for a number. -/
theorem ne {d : Char} (hd : ¬ StartsNumber d) : c ≠ d := fun h => hd (h ▸ hc)

theorem isBlank : isBlank c = false := by
  simp [Json.isBlank, hc.ne (d := ' ') (by decide), hc.ne (d := '\n') (by decide),
    hc.ne (d := '\t') (by decide), hc.ne (d := '\r') (by decide)]

end StartsNumber

/-- A value starts with something that is not blank and ends no list. -/
theorem exists_write_eq_cons {v : Value} (h : v.FloatFree) :
    ∃ c s, v.write = c :: s ∧ isBlank c = false ∧ c ≠ ']' := by
  cases h with
  | null => exact ⟨'n', _, rfl, rfl, by decide⟩
  | bool b => cases b <;> exact ⟨_, _, rfl, rfl, by decide⟩
  | integer n fits =>
    obtain ⟨c, s, hs, hc⟩ := exists_ofInt_eq_cons n
    exact ⟨c, s, hs, hc.isBlank, hc.ne (by decide)⟩
  | string s => exact ⟨'"', _, rfl, rfl, by decide⟩
  | array h => exact ⟨'[', _, rfl, rfl, by decide⟩
  | object h => exact ⟨'{', _, rfl, rfl, by decide⟩

theorem skipBlanks_cons {c : Char} (h : isBlank c = false) (s : Text) :
    skipBlanks (c :: s) = c :: s := by
  rw [skipBlanks, List.dropWhile_cons_of_neg (by simp [h])]

/-- Nothing is skipped in front of a value. -/
theorem skipBlanks_write {v : Value} (h : v.FloatFree) (rest : Text) :
    skipBlanks (v.write ++ rest) = v.write ++ rest := by
  obtain ⟨c, s, hs, hc, -⟩ := exists_write_eq_cons h
  rw [hs, List.cons_append, skipBlanks_cons hc]

/-! ### Lists -/

/-- **A value is read back**, with its keys in order, whatever follows it in a document. -/
def ReadsBack (read : Reader Value) (v : Value) : Prop :=
  ∀ s, AfterValue s → read (v.write ++ s) = .ok (v.regularized, s)

/-- The first element of a list is where the list begins. -/
theorem nextItem_first {v : Value} (h : v.FloatFree) (rest : Text) :
    nextItem true (v.write ++ rest) = .ok (some (v.write ++ rest)) := by
  obtain ⟨c, s, hs, -, hc⟩ := exists_write_eq_cons h
  rw [nextItem, skipBlanks_write h, hs, List.cons_append]
  split
  · next heq => exact absurd (List.cons.inj heq).1 hc
  · next heq => rw [heq, if_pos rfl]
  · rw [if_pos rfl]

/-- Any other element is behind its comma. -/
theorem nextItem_later {v : Value} (h : v.FloatFree) (rest : Text) :
    nextItem false (',' :: (v.write ++ rest)) = .ok (some (v.write ++ rest)) := by
  obtain ⟨c, s, hs, -, hc⟩ := exists_write_eq_cons h
  have hskip := skipBlanks_write h rest
  rw [hs, List.cons_append] at hskip ⊢
  have hcomma : skipBlanks (',' :: c :: (s ++ rest)) = ',' :: c :: (s ++ rest) :=
    skipBlanks_cons rfl _
  simp [nextItem, hcomma, hskip, hc]

section Items

variable {item : Reader Value} {rest : Text}

theorem afterValue_laterItems (vs : List Value) (rest : Text) :
    AfterValue (laterItems vs ++ ']' :: rest) := by
  cases vs with
  | nil => exact .bracket rest
  | cons v vs => exact .comma _

/-- The first element is taken off, and then the others. -/
theorem readItems_cons {first : Bool} {s : Text} {v : Value} {vs : List Value}
    (hnext : nextItem first s = .ok (some (v.write ++ (laterItems vs ++ ']' :: rest))))
    (hitem : ReadsBack item v) {fuel : Nat}
    (hlater : readItems item fuel false (laterItems vs ++ ']' :: rest) =
      .ok (regularizedItems vs, rest)) :
    readItems item (fuel + 1) first s = .ok (regularizedItems (v :: vs), rest) := by
  have hv := hitem _ (afterValue_laterItems vs rest)
  rw [readItems, hnext]
  simp only [bind, Except.bind, hv, hlater, regularizedItems]

theorem readItems_later {vs : List Value} (hfree : ∀ v ∈ vs, v.FloatFree)
    (hitem : ∀ v ∈ vs, ReadsBack item v) {fuel : Nat} (hfuel : vs.length < fuel) :
    readItems item fuel false (laterItems vs ++ ']' :: rest) = .ok (regularizedItems vs, rest) := by
  induction vs generalizing fuel with
  | nil =>
    cases fuel with
    | zero => cases hfuel
    | succ fuel => rfl
  | cons v vs ih =>
    rw [List.forall_mem_cons] at hfree hitem
    cases fuel with
    | zero => cases hfuel
    | succ fuel =>
      have htext : laterItems (v :: vs) ++ ']' :: rest =
          ',' :: (v.write ++ (laterItems vs ++ ']' :: rest)) := by
        simp [laterItems]
      rw [htext]
      exact readItems_cons (nextItem_later hfree.1 _) hitem.1
        (ih hfree.2 hitem.2 (Nat.lt_of_succ_lt_succ hfuel))

/-- **The elements of a list are read back** if each of them is. -/
theorem readItems_written {vs : List Value} (hfree : ∀ v ∈ vs, v.FloatFree)
    (hitem : ∀ v ∈ vs, ReadsBack item v) {fuel : Nat} (hfuel : vs.length < fuel) :
    readItems item fuel true (writeItems vs ++ ']' :: rest) = .ok (regularizedItems vs, rest) := by
  cases fuel with
  | zero => cases hfuel
  | succ fuel =>
    cases vs with
    | nil => rfl
    | cons v vs =>
      rw [List.forall_mem_cons] at hfree hitem
      rw [writeItems_cons, List.append_assoc]
      exact readItems_cons (nextItem_first hfree.1 _) hitem.1
        (readItems_later hfree.2 hitem.2 (Nat.lt_of_succ_lt_succ hfuel))

end Items

/-! ### Objects -/

section Members

variable {σ : Type} {member : σ → Text → Reader σ} {add : σ → Text × Value → Option σ}
  {rest : Text}

/-- **A member is read as `add` says**, whatever follows it in a document: it is put on top
of what has been read, or refused. -/
def ReadsAs (member : σ → Text → Reader σ) (add : σ → Text × Value → Option σ)
    (m : Text × Value) : Prop :=
  ∀ acc s, AfterValue s →
    (member acc m.1 (':' :: (m.2.write ++ s))).toOption = (add acc m).map fun acc => (acc, s)

theorem afterValue_laterMembers (ms : Entries Value) (rest : Text) :
    AfterValue (laterMembers ms ++ '}' :: rest) := by
  cases ms with
  | nil => exact .brace rest
  | cons m ms => exact .comma _

/-- What stands behind the quote that opens the first key. -/
def behindQuote (m : Text × Value) (ms : Entries Value) (rest : Text) : Text :=
  m.1.flatMap escapeChar ++ '"' :: ':' :: (m.2.write ++ (laterMembers ms ++ '}' :: rest))

/-- The first member is taken off, and the others are read on top of it. -/
theorem readMembers_cons {first : Bool} {s : Text} {m : Text × Value} {ms : Entries Value}
    (hkey : nextKey first s = .ok (some (behindQuote m ms rest)))
    (hmember : ReadsAs member add m) {fuel : Nat}
    (hlater : ∀ acc,
      (readMembers member fuel false acc (laterMembers ms ++ '}' :: rest)).toOption =
        (ms.foldlM add acc).map fun acc => (acc, rest)) (acc : σ) :
    (readMembers member (fuel + 1) first acc s).toOption =
      ((m :: ms).foldlM add acc).map fun acc => (acc, rest) := by
  have hm := hmember acc _ (afterValue_laterMembers ms rest)
  simp only [readMembers, hkey, behindQuote, readQuoted_written, toOption_bind, toOption_ok,
    Option.bind_some, hm, Option.bind_map, List.foldlM_cons, Option.bind_eq_bind, Option.map_bind]
  exact congrArg _ (funext hlater)

theorem readMembers_later {ms : Entries Value} (hmember : ∀ m ∈ ms, ReadsAs member add m)
    {fuel : Nat} (hfuel : ms.length < fuel) (acc : σ) :
    (readMembers member fuel false acc (laterMembers ms ++ '}' :: rest)).toOption =
      (ms.foldlM add acc).map fun acc => (acc, rest) := by
  induction ms generalizing fuel acc with
  | nil =>
    cases fuel with
    | zero => cases hfuel
    | succ fuel => rfl
  | cons m ms ih =>
    rw [List.forall_mem_cons] at hmember
    cases fuel with
    | zero => cases hfuel
    | succ fuel =>
      have htext : laterMembers (m :: ms) ++ '}' :: rest = ',' :: '"' :: behindQuote m ms rest := by
        simp [laterMembers, writeMember, quote, behindQuote]
      rw [htext]
      exact readMembers_cons rfl hmember.1 (ih hmember.2 (Nat.lt_of_succ_lt_succ hfuel)) acc

/-- **The members of an object are read one after the other**, each on top of what those
in front of it have left, up to the first that is refused. -/
theorem readMembers_written {ms : Entries Value} (hmember : ∀ m ∈ ms, ReadsAs member add m)
    {fuel : Nat} (hfuel : ms.length < fuel) (acc : σ) :
    (readMembers member fuel true acc (writeMembers ms ++ '}' :: rest)).toOption =
      (ms.foldlM add acc).map fun acc => (acc, rest) := by
  cases fuel with
  | zero => cases hfuel
  | succ fuel =>
    cases ms with
    | nil => rfl
    | cons m ms =>
      rw [List.forall_mem_cons] at hmember
      have htext : writeMembers (m :: ms) ++ '}' :: rest = '"' :: behindQuote m ms rest := by
        simp [writeMembers_cons, writeMember, quote, behindQuote]
      rw [htext]
      exact readMembers_cons rfl hmember.1
        (readMembers_later hmember.2 (Nat.lt_of_succ_lt_succ hfuel)) acc

/-- **Members whose values are read back are put in one after the other.** -/
theorem readMembers_put (put : σ → Text → Value → σ) {read : Reader Value} {ms : Entries Value}
    (hread : ∀ m ∈ ms, ReadsBack read m.2) {fuel : Nat} (hfuel : ms.length < fuel) (acc : σ)
    (rest : Text) :
    readMembers
      (fun acc key s => do
        let s ← expectColon s
        let (v, s) ← read s
        .ok (put acc key v, s))
      fuel true acc (writeMembers ms ++ '}' :: rest) =
      .ok ((regularizedMembers ms).foldl (fun acc m => put acc m.1 m.2) acc, rest) := by
  refine eq_ok_of_toOption ?_
  rw [regularizedMembers_eq_map, List.foldl_map, readMembers_written ?_ hfuel acc]
  · exact congrArg _ List.foldlM_pure
  · intro m hm acc s hs
    have hcolon : expectColon (':' :: (m.2.write ++ s)) = .ok (m.2.write ++ s) := rfl
    simp only [hcolon, hread m hm s hs, bind, Except.bind]
    rfl

end Members

/-! ### Values -/

/-- What starts neither a list nor an object is read as a scalar. -/
theorem readValue_eq_readScalar {fuel depth : Nat} {c : Char} {s : Text}
    (hblank : isBlank c = false) (hlist : c ≠ '[') (hobject : c ≠ '{') :
    readValue fuel depth (c :: s) = readScalar (c :: s) := by
  rw [readValue, skipBlanks_cons hblank]
  split
  · next heq => exact absurd (List.cons.inj heq).1 hlist
  · next heq => exact absurd (List.cons.inj heq).1 hobject
  · rfl

/-- What starts as a number is read as one. -/
theorem readScalar_eq_readNumber {c : Char} {s : Text} (hc : StartsNumber c) :
    readScalar (c :: s) = readNumber (c :: s) := by
  rw [readScalar]
  · exact if_pos hc
  all_goals exact hc.ne (by decide)

/-- **Every value is read back** if the reader may go as deep as the value and its fuel is
as long as what is written. -/
theorem readsBack_readValue {v : Value} (hfree : v.FloatFree) {fuel depth : Nat}
    (hdepth : v.depth ≤ depth) (hfuel : v.write.length ≤ fuel) :
    ReadsBack (readValue fuel depth) v := by
  induction hfree generalizing depth with
  | null =>
    intro rest hrest
    exact readValue_eq_readScalar rfl (by decide) (by decide)
  | bool b =>
    intro rest hrest
    cases b <;> exact readValue_eq_readScalar rfl (by decide) (by decide)
  | integer n fits =>
    intro rest hrest
    obtain ⟨c, s, hs, hc⟩ := exists_ofInt_eq_cons n
    have hnumber := readNumber_ofInt fits hrest
    rw [hs, List.cons_append] at hnumber
    rw [write, hs, List.cons_append,
      readValue_eq_readScalar hc.isBlank (hc.ne (by decide)) (hc.ne (by decide)),
      readScalar_eq_readNumber hc, hnumber]
    rfl
  | string s =>
    intro rest hrest
    rw [write, quote_append, readValue_eq_readScalar rfl (by decide) (by decide)]
    simp only [readScalar, readQuoted_written, regularized]
    rfl
  | @array items hfree ih =>
    intro rest hrest
    cases depth with
    | zero => cases hdepth
    | succ depth =>
      have hitem : ∀ v ∈ items, ReadsBack (readValue fuel depth) v := by
        intro v hv
        have hshort := length_write_lt_of_mem_items hv
        have hdeep := depthItems_le_iff.mp (Nat.le_of_succ_le_succ hdepth) v hv
        exact ih v hv hdeep (by omega)
      have hitems : readItems (readValue fuel depth) fuel true (writeItems items ++ ']' :: rest) =
          .ok (regularizedItems items, rest) :=
        readItems_written hfree hitem (Nat.lt_of_lt_of_le (length_items_lt items) hfuel)
      rw [write_array_append, readValue, skipBlanks_cons rfl, regularized]
      simp only [hitems, bind, Except.bind]
  | @object members hfree ih =>
    intro rest hrest
    cases depth with
    | zero => cases hdepth
    | succ depth =>
      have hvalue : ∀ m ∈ members, ReadsBack (readValue fuel depth) m.2 := by
        intro m hm
        have hshort := length_write_lt_of_mem_members hm
        have hdeep := depthMembers_le_iff.mp (Nat.le_of_succ_le_succ hdepth) m hm
        exact ih m hm hdeep (by omega)
      have hmembers := readMembers_put (fun acc key v => Entries.insert key v acc) hvalue
        (Nat.lt_of_lt_of_le (length_members_lt members) hfuel) [] rest
      rw [write_object_append, readValue, skipBlanks_cons rfl, regularized]
      exact congrArg (· >>= fun r => .ok (object r.1, r.2)) hmembers

/-! ### Values of the wrong kind -/

/-- A refusal is never anything else. -/
theorem toOption_refuse {α : Type} (wanted : Config.Wanted) (s : Text) :
    (refuse wanted s : Except Halt α).toOption = none := by
  unfold refuse
  split
  · rfl
  · rfl
  · cases readScalar s <;> rfl

/-- What starts neither as `null` nor as a string is refused where a string may stand. -/
theorem toOption_readOptionalString {c : Char} {s : Text} (hblank : isBlank c = false)
    (hnull : c ≠ 'n') (hquote : c ≠ '"') : (readOptionalString (c :: s)).toOption = none := by
  rw [readOptionalString, skipBlanks_cons hblank]
  split
  · next heq => exact absurd (List.cons.inj heq).1 hnull
  · next heq => exact absurd (List.cons.inj heq).1 hquote
  · exact toOption_refuse _ _

end Json

end Stencil
