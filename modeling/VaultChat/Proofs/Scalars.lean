import VaultChat.Proofs.Lookahead
import VaultChat.Toml.Document

/-!
# What scalars do not look at

Blanks, numbers, moments and bare keys take a mark, such as a quotation mark or a bracket, for the end of the text.
-/

namespace VaultChat.Toml

open Text (Reader)
open Text.Reader

/-- The marks that give a document its structure. -/
def marks : List Char := ['"', '\'', '[', ']', '\x7b', '\x7d', ',', '=', '#']

/-- The reader takes a mark for the end of the text. -/
abbrev StopsAtMarks {α : Type} (r : Reader Char α) : Prop := Halts (· ∈ marks) r

theorem false_at_marks {p : Char → Bool} (h : marks.all (!p ·) = true) : ∀ x ∈ marks, p x = false := by
  intro x hx
  simpa using List.all_eq_true.1 h x hx

theorem marks_notMem {t : List Char} (h : marks.all (!t.contains ·) = true) : ∀ x ∈ marks, x ∉ t := by
  intro x hx
  simpa using List.all_eq_true.1 h x hx

theorem stopsAtMarks_taken {α : Type} {r : Reader Char α} (h : StopsAtMarks r) : StopsAtMarks (taken r) := by
  refine ⟨fun cs a rest htaken => ?_, fun {x} hx p z => ?_⟩
  · unfold taken at htaken
    obtain ⟨y, hy, heq⟩ := Option.map_eq_some_iff.1 htaken
    cases heq
    exact h.shrinks hy
  · unfold taken
    rw [h.halts hx]
    cases hp : r p with
    | none => rfl
    | some y =>
      obtain ⟨t, ht⟩ := h.shrinks hp
      have hlen : p.length - y.2.length = t.length := by
        rw [← ht, List.length_append]
        omega
      have hlen' : (p ++ x :: z).length - (y.2 ++ x :: z).length = t.length := by
        rw [← ht]
        simp only [List.length_append, List.length_cons]
        omega
      simp only [Option.map_some, hlen, hlen']
      rw [← ht]
      simp

/-- Digits of a fixed number. -/
theorem stopsAtMarks_digitsOf {α : Type} {n : Nat} {p : Char → Bool} (hp : ∀ x ∈ marks, p x = false)
    (ok : List Char → Prop) [DecidablePred ok] (value : List Char → α) :
    StopsAtMarks fun cs =>
      if ((cs.take n).takeWhile p).length = n ∧ ok ((cs.take n).takeWhile p) then
        some (value ((cs.take n).takeWhile p), cs.drop n)
      else none := by
  refine ⟨fun cs a rest h => ?_, fun {x} hx cs z => ?_⟩
  · split at h
    · cases h
      exact List.drop_suffix _ _
    · cases h
  · have hdigits : ((cs ++ x :: z).take n).takeWhile p = (cs.take n).takeWhile p := by
      induction cs generalizing n with
      | nil => cases n <;> simp [hp x hx]
      | cons c cs ih =>
        cases n with
        | zero => rfl
        | succ n => simp only [List.cons_append, List.take_succ_cons, List.takeWhile_cons, ih]
    rw [hdigits]
    split
    · rename_i h
      have hle : n ≤ cs.length := by
        have hshort := (List.takeWhile_prefix (l := cs.take n) p).length_le
        rw [h.1, List.length_take] at hshort
        omega
      rw [List.drop_append_of_le_length hle]
      rfl
    · rfl

/-! ### Blanks -/

theorem stopsAtMarks_gap : StopsAtMarks gap := (Halts.run (false_at_marks (by decide))).discard

theorem stopsAtMarks_lineBreak : StopsAtMarks lineBreak :=
  (Halts.exactly (marks_notMem (by decide))).orElse (.exactly (marks_notMem (by decide)))

/-! ### Numbers -/

theorem stopsAtMarks_digits {p : Char → Bool} (h : marks.all (!p ·) = true) : StopsAtMarks (digits p) := by
  have hone : StopsAtMarks (one p) := .one (false_at_marks h)
  have hskip : StopsAtMarks (discard (perhaps (exactly ['_'])) : Reader Char Unit) :=
    (Halts.exactly (marks_notMem (by decide))).perhaps.discard
  have hnext : Consumes (discard (perhaps (exactly ['_'])) *> one p) :=
    hskip.shrinks.bind_consumes fun _ => consumes_one p
  exact hone.bind fun _ => (Halts.many (hskip.seqRight hone) hnext).bind fun _ => .pure _

theorem stopsAtMarks_plainDigits : StopsAtMarks plainDigits := by
  refine (Halts.exactly (marks_notMem (by decide))).perhaps.bind fun o => ?_
  split
  · exact .pure _
  · exact stopsAtMarks_digits (by decide)

theorem stopsAtMarks_sign : StopsAtMarks sign := by
  refine (Halts.one (false_at_marks (by decide))).perhaps.bind fun o => ?_
  split
  · exact .pure _
  · exact .pure _

theorem stopsAtMarks_decimal : StopsAtMarks decimal := by
  refine stopsAtMarks_sign.bind fun _ => stopsAtMarks_plainDigits.bind fun _ => ?_
  split
  · exact .pure _
  · exact .failure

theorem stopsAtMarks_based {mark : Char} {b : Nat} {p : Char → Bool} (hmark : mark ∉ marks)
    (h : marks.all (!p ·) = true) : StopsAtMarks (based mark b p) := by
  have hprefix : ∀ x ∈ marks, x ∉ ['0', mark] := by
    intro x hx hmem
    rcases List.mem_cons.1 hmem with rfl | hmem
    · exact absurd hx (by decide)
    · rw [List.mem_singleton.1 hmem] at hx
      exact hmark hx
  refine (Halts.exactly hprefix).bind fun _ => (stopsAtMarks_digits h).bind fun _ => ?_
  dsimp only
  split
  · exact .pure _
  · exact .failure

theorem stopsAtMarks_integer : StopsAtMarks integer :=
  (stopsAtMarks_based (by decide) (by decide)).orElse <| (stopsAtMarks_based (by decide) (by decide)).orElse <|
    (stopsAtMarks_based (by decide) (by decide)).orElse stopsAtMarks_decimal

theorem stopsAtMarks_exponent : StopsAtMarks exponent := by
  have hmark : StopsAtMarks (one fun c => c == 'e' || c == 'E') := .one (false_at_marks (by decide))
  exact hmark.discard.bind fun _ => stopsAtMarks_sign.bind fun _ =>
    (stopsAtMarks_digits (by decide)).bind fun _ => .pure _

theorem stopsAtMarks_fraction : StopsAtMarks fraction :=
  (Halts.exactly (marks_notMem (by decide))).seqRight (stopsAtMarks_digits (by decide))

theorem stopsAtMarks_finiteFloat : StopsAtMarks finiteFloat := by
  have hcheck (c : Bool) : StopsAtMarks (if c = true then failure else pure () : Reader Char Unit) := by
    split
    · exact .failure
    · exact .pure _
  refine stopsAtMarks_sign.bind fun _ => stopsAtMarks_plainDigits.bind fun _ =>
    stopsAtMarks_fraction.perhaps.bind fun o => ?_
  dsimp only
  split
  · exact stopsAtMarks_exponent.perhaps.bind fun _ => hcheck _
  · exact (stopsAtMarks_exponent.bind fun _ => .pure _).bind fun _ => hcheck _

theorem stopsAtMarks_float : StopsAtMarks float := by
  have hspecial : StopsAtMarks (discard sign *> (exactly ['i', 'n', 'f'] <|> exactly ['n', 'a', 'n'])) :=
    stopsAtMarks_sign.discard.seqRight
      ((Halts.exactly (marks_notMem (by decide))).orElse (.exactly (marks_notMem (by decide))))
  exact (stopsAtMarks_taken (stopsAtMarks_finiteFloat.orElse hspecial)).bind fun _ => .pure _

theorem stopsAtMarks_boolean : StopsAtMarks boolean :=
  ((Halts.exactly (marks_notMem (by decide))).seqRight (.pure _)).orElse
    ((Halts.exactly (marks_notMem (by decide))).seqRight (.pure _))

/-! ### Moments -/

theorem stopsAtMarks_field {n low high : Nat} : StopsAtMarks (field n low high) :=
  stopsAtMarks_digitsOf (false_at_marks (by decide))
    (fun ds => low ≤ Text.digitsValue 0 ds ∧ Text.digitsValue 0 ds ≤ high) (Text.digitsValue 0)

theorem stopsAtMarks_date : StopsAtMarks date := by
  have hhyphen : StopsAtMarks (exactly ['-']) := .exactly (marks_notMem (by decide))
  exact stopsAtMarks_field.bind fun _ => hhyphen.bind fun _ => stopsAtMarks_field.bind fun _ => hhyphen.bind fun _ =>
    stopsAtMarks_field.discard

theorem stopsAtMarks_time : StopsAtMarks time := by
  have hcolon : StopsAtMarks (exactly [':']) := .exactly (marks_notMem (by decide))
  have hpoint : StopsAtMarks (exactly ['.']) := .exactly (marks_notMem (by decide))
  have hfraction : StopsAtMarks (run1 Text.isDigit) := .run1 (false_at_marks (by decide))
  exact stopsAtMarks_field.discard.bind fun _ => hcolon.bind fun _ => stopsAtMarks_field.discard.bind fun _ =>
    hcolon.bind fun _ => stopsAtMarks_field.discard.bind fun _ => (hpoint.seqRight hfraction).perhaps.discard

theorem stopsAtMarks_offset : StopsAtMarks offset := by
  refine (Halts.one (false_at_marks (by decide))).bind fun c => ?_
  split
  · exact stopsAtMarks_field.discard.bind fun _ => (Halts.exactly (marks_notMem (by decide))).bind fun _ =>
      stopsAtMarks_field.discard
  · exact .pure _

theorem stopsAtMarks_moment : StopsAtMarks moment := by
  have hmark : StopsAtMarks (one fun c => c == 'T' || c == 't' || c == ' ') := .one (false_at_marks (by decide))
  have hlater : StopsAtMarks (one (fun c => c == 'T' || c == 't' || c == ' ') *> time *> perhaps offset) :=
    (hmark.seqRight stopsAtMarks_time).seqRight stopsAtMarks_offset.perhaps
  exact (stopsAtMarks_taken ((stopsAtMarks_date.seqRight hlater.perhaps.discard).orElse stopsAtMarks_time)).bind
    fun _ => .pure _

end VaultChat.Toml
