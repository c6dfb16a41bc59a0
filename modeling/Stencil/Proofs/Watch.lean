import Stencil.Proofs.Engine.Setting

/-!
# One pass suffices

A machine that reads a text once, from left to right, keeps one of seven states and stops in
`Stencil.Watch.found` exactly when it has seen a token that is not escaped. It remembers
whether the run of backslashes in front of the place where it stands is odd, and nothing
else: it neither looks ahead nor goes back. The cut into pieces searches ahead for an
opener, counts the backslashes in front of it backwards, searches ahead again for the
closing brace, and starts anew behind an opener that has none. The two agree on every
text (`Stencil.Watch.finds_eq`), so a value is let in exactly when the machine does not
stop on it.

The machine is followed along the form of a text. Behind a lead it *stands ready*
(`Stencil.Watch.Ready`): whatever it has read, a run of backslashes is counted from its
start. This is where a machine that looks ahead nowhere could go wrong: it does not know
that an opener follows, and a dollar sign at the end of the lead leaves it in another
state than any other character. Both states lead to the same place once an opener has
been read (`Stencil.Watch.run_opener`).

Behind an opener nothing is lost by not looking ahead. Either the first closing brace
comes, and the machine is where the cut goes on; or none comes, and then no token can
follow (`Stencil.inert_of_closing_notMem`), so that the machine may wait for the brace to
the end of the text.
-/

namespace Stencil

open Piece Text

/-! ### The machine -/

/-- What the machine remembers. -/
inductive Watch where
  /-- In plain text, behind a run of backslashes that is odd or even. -/
  | plain (odd : Bool)
  /-- Behind a dollar sign that such a run precedes. -/
  | dollar (odd : Bool)
  /-- In the name of a token that such a run precedes. -/
  | name (odd : Bool)
  /-- An unescaped token has been read. -/
  | found
  deriving DecidableEq

namespace Watch

/-- Where a character leads from a state. -/
def step : Watch → Char → Watch
  | plain odd, c =>
    if c = '\\' then plain (!odd) else if c = '$' then dollar odd else plain false
  | dollar odd, c =>
    if c = '{' then name odd
    else if c = '$' then dollar false
    else if c = '\\' then plain true
    else plain false
  | name odd, c =>
    if c = '}' then if odd then plain false else found else name odd
  | found, _ => found

/-- Where a text leads from a state. -/
def run (w : Watch) (s : Text) : Watch := s.foldl step w

/-- The machine, started in plain text without backslashes, finds an unescaped token. -/
def finds (s : Text) : Bool := run (plain false) s == found

/-! ### The machine on the parts of a text -/

theorem run_append (w : Watch) (s t : Text) : run w (s ++ t) = run (run w s) t :=
  List.foldl_append

@[simp] theorem run_cons (w : Watch) (c : Char) (s : Text) : run w (c :: s) = run (w.step c) s :=
  rfl

/-- What has been found stays found. -/
@[simp] theorem run_found (s : Text) : run found s = found := by
  induction s with
  | nil => rfl
  | cons c s ih => exact ih

/-- A name goes on to the first closing brace. -/
theorem run_name {s : Text} (h : closing ∉ s) (odd : Bool) : run (name odd) s = name odd := by
  induction s with
  | nil => rfl
  | cons c s ih =>
    rw [List.mem_cons, not_or] at h
    have hstep : (name odd).step c = name odd := if_neg fun hc => h.1 hc.symm
    rw [run_cons, hstep, ih h.2]

/-! ### Plain text -/

/-- **What is remembered of plain text** when no name has begun: a dollar sign at its end, a
run of backslashes at its end, and otherwise nothing. -/
inductive Behind (s : Text) : Watch → Prop
  /-- The text ends in a dollar sign. -/
  | dollar (odd : Bool) : s.getLast? = some '$' → Behind s (dollar odd)
  /-- The text ends in a backslash. -/
  | slash (odd : Bool) : s.getLast? = some '\\' → Behind s (plain odd)
  /-- The text ends in no backslash that is counted. -/
  | plain : Behind s (plain false)

/-- **One character more** begins no name, unless a brace meets a dollar sign. -/
theorem Behind.step {s : Text} {w : Watch} (h : Behind s w) {c : Char}
    (hmeet : ¬ (s.getLast? = some '$' ∧ c = '{')) : Behind (s ++ [c]) (w.step c) := by
  rcases eq_or_ne c '$' with rfl | hdollar
  · have hlast : (s ++ ['$']).getLast? = some '$' := List.getLast?_concat
    cases h with
    | dollar odd _ => exact Behind.dollar false hlast
    | slash odd _ => exact Behind.dollar odd hlast
    | plain => exact Behind.dollar false hlast
  rcases eq_or_ne c '\\' with rfl | hslash
  · have hlast : (s ++ ['\\']).getLast? = some '\\' := List.getLast?_concat
    cases h with
    | dollar odd _ => exact Behind.slash true hlast
    | slash odd _ => exact Behind.slash (!odd) hlast
    | plain => exact Behind.slash true hlast
  have hstep : w.step c = Watch.plain false := by
    cases h with
    | dollar odd hlast =>
      have hbrace : c ≠ '{' := fun hc => hmeet ⟨hlast, hc⟩
      simp [Watch.step, hdollar, hslash, hbrace]
    | slash odd _ => simp [Watch.step, hdollar, hslash]
    | plain => simp [Watch.step, hdollar, hslash]
  rw [hstep]
  exact Behind.plain

/-- **Plain text begins no name.** -/
theorem behind_run {s : Text} (h : ¬ HasOpening s) : Behind s (run (plain false) s) := by
  induction s using List.reverseRecOn with
  | nil => exact Behind.plain
  | append_singleton s c ih =>
    rw [hasOpening_append_iff, not_or, not_or] at h
    obtain ⟨hs, -, hmeet⟩ := h
    rw [run_append]
    exact (ih hs).step fun hc => hmeet ⟨hc.1, congrArg some hc.2⟩

/-! ### Leads and openers -/

/-- **Standing ready**: a run of backslashes is counted from its start, and an opener is
read. -/
inductive Ready : Watch → Prop
  /-- In plain text, behind no backslash. -/
  | plain : Ready (plain false)
  /-- Behind a dollar sign, whatever run precedes it. -/
  | dollar (odd : Bool) : Ready (dollar odd)

/-- **Behind a lead the machine stands ready.** -/
theorem ready_run_lead {lead : Text} (h : IsLead lead) : Ready (run (plain false) lead) := by
  have hbehind := behind_run h.plain
  generalize run (plain false) lead = w at hbehind
  cases hbehind with
  | dollar odd _ => exact Ready.dollar odd
  | slash odd hlast => exact absurd hlast h.last
  | plain => exact Ready.plain

theorem run_slashes_succ {w : Watch} (hw : Ready w) (n : Nat) :
    run w (slashes (n + 1)) = plain ((n + 1) % 2 == 1) := by
  induction n with
  | zero => cases hw <;> rfl
  | succ n ih =>
    have hparity : (!((n + 1) % 2 == 1)) = ((n + 1 + 1) % 2 == 1) := by
      rcases Nat.mod_two_eq_zero_or_one (n + 1) with hn | hn
      · simp [hn, Nat.add_mod (n + 1) 1]
      · simp [hn, Nat.add_mod (n + 1) 1]
    rw [slashes, List.replicate_succ', run_append, ← slashes, ih, ← hparity]
    rfl

/-- **An opener is read with its run**: what is remembered of the run is its parity. -/
theorem run_opener {w : Watch} (hw : Ready w) (n : Nat) (rest : Text) :
    run w ((opener n).source ++ rest) = run (name (n % 2 == 1)) rest := by
  cases n with
  | zero => cases hw <;> rfl
  | succ n =>
    rw [source, List.append_assoc, run_append, run_slashes_succ hw]
    rfl

/-! ### The machine and the cut -/

/-- The machine stops on a text exactly when it ends in the state of having found a token. -/
theorem finds_iff {s : Text} : finds s = true ↔ run (plain false) s = found := beq_iff_eq

/-- **The machine finds what the cut finds.** -/
theorem finds_eq (s : Text) : finds s = hasUnescapedToken s := by
  induction s using Text.form_induction with
  | plain s hs =>
    rw [hasUnescapedToken_of_plain hs, ← Bool.not_eq_true, finds_iff]
    intro hfound
    have hbehind := behind_run hs
    rw [hfound] at hbehind
    cases hbehind
  | token lead name n rest hlead hname ih =>
    rw [hasUnescapedToken_lead_token hlead hname, ← ih, source_token_append, finds, run_append,
      run_opener (ready_run_lead hlead), run_append, run_name hname, run_cons]
    cases n % 2 == 1 with
    -- the brace ends the pass, whatever follows
    | false => exact beq_iff_eq.mpr (run_found rest)
    -- the brace leads back to the state in which the pass began
    | true => rfl
  | opener lead n body hlead hbody _ =>
    rw [hasUnescapedToken_lead_opener hlead hbody, ← Bool.not_eq_true, finds_iff, run_append,
      run_opener (ready_run_lead hlead), run_name hbody]
    exact nofun

/-- A backslash in front of a dollar sign escapes nothing if the next opener has a dollar sign
of its own. -/
example : finds ['\\', '$', '$', '{', 'a', '}'] = true := rfl

/-- **The machine tells what may be inserted.** It stops on a text exactly when some token
of the text is not escaped, and a text is let in as a value or as the default exactly when
the machine does not stop on it. -/
theorem recognizes_unescaped (s : Text) :
    (hasUnescapedToken s = true ↔ run (plain false) s = found) ∧
      (∀ (e : Engine) (name : Text),
        (∃ e', e.bind name s = .ok e') ↔ run (plain false) s ≠ found) ∧
      ∀ e : Engine, (∃ e', e.setFallback s = .ok e') ↔ run (plain false) s ≠ found := by
  have hfound : hasUnescapedToken s = true ↔ run (plain false) s = found := by
    rw [← finds_eq, finds_iff]
  have hinert : hasUnescapedToken s = false ↔ run (plain false) s ≠ found := by
    rw [← Bool.not_eq_true, hfound]
  refine ⟨hfound, fun e name => ?_, fun e => ?_⟩
  · simp only [Engine.bind_eq_ok_iff, exists_and_left, exists_eq, and_true, hinert]
  · simp only [Engine.setFallback_eq_ok_iff, exists_and_left, exists_eq, and_true, hinert]

end Watch

end Stencil
