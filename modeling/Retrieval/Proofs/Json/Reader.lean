/-
# Retrieval.Proofs.Json.Reader -- the reader on parts of a text

Reading is a fold, so a text is read part by part (`Reader.run_append`).  This module
says what single parts do: a numeral that begins where a value may stand is taken up
whole (`run_numeral`), and it ends at the first character that cannot continue it
(`run_numeral_end`).

A text that stops inside of a container is never accepted.  `Reader.Open` is the
invariant behind that: some container is open and nothing has been read to the end;
only a closing bracket can end it (`run_open`).
-/
import Retrieval.Json.Source

namespace Retrieval

set_option autoImplicit false

namespace Json

namespace Numeral

/-- The numeral that a text is, taken to its last character. -/
def scan : List Char → Option Numeral
  | [] => none
  | c :: rest => (start? c).bind fun n => rest.foldlM step n

theorem scan_append_singleton {text : List Char} (c : Char) (nonempty : text ≠ []) :
    scan (text ++ [c]) = (scan text).bind fun n => n.step c := by
  cases text with
  | nil => exact absurd rfl nonempty
  | cons d rest =>
      simp only [List.cons_append, scan, List.foldlM_append, Option.bind_assoc]
      cases start? d with
      | none => rfl
      | some n => simp [List.foldlM]

/-- The characters that end every numeral. -/
def ends (c : Char) : Bool := c = ',' || c = ']' || c = '}' || c = ' ' || c = '\n'

theorem step_of_ends (n : Numeral) {c : Char} (h : ends c = true) : n.step c = none := by
  simp only [ends, Bool.or_eq_true, decide_eq_true_eq] at h
  obtain ⟨phase, _, _, _, _, _⟩ := n
  rcases h with (((rfl | rfl) | rfl) | rfl) | rfl <;> cases phase <;> rfl

end Numeral

namespace Reader

/-- The state after a text. -/
def run (r : Reader) (text : List Char) : Option Reader := text.foldlM step r

@[simp] theorem run_nil (r : Reader) : r.run [] = some r := rfl

theorem run_cons (r : Reader) (c : Char) (text : List Char) :
    r.run (c :: text) = (r.step c).bind fun r => r.run text := rfl

theorem run_append (r : Reader) (s t : List Char) :
    r.run (s ++ t) = (r.run s).bind fun r => r.run t := by
  simp only [run, List.foldlM_append]
  rfl

theorem run_append_of_eq {r r' : Reader} {s : List Char} (h : r.run s = some r')
    (t : List Char) : r.run (s ++ t) = r'.run t := by
  rw [run_append, h]
  rfl

/-! ## Numerals -/

/-- Where a value may begin, a character that begins a numeral does. -/
theorem stepBetween_numeral {r : Reader} (wants : r.wantsValue = true) {c : Char} {n : Numeral}
    (begun : Numeral.start? c = some n) :
    r.stepBetween c = some { r with lexeme := .numeral n } := by
  have other {d : Char} (h : Numeral.start? d = none) : c ≠ d := by
    rintro rfl
    rw [h] at begun
    cases begun
  have notSpace : isSpace c = false := by
    simp [isSpace, other (d := ' ') rfl, other (d := '\t') rfl, other (d := '\n') rfl,
      other (d := '\r') rfl]
  simp [stepBetween, notSpace, wants, begun, other (d := '"') rfl, other (d := ',') rfl,
    other (d := ':') rfl, other (d := ']') rfl, other (d := '}') rfl, other (d := '[') rfl,
    other (d := '{') rfl, other (d := 't') rfl, other (d := 'f') rfl, other (d := 'n') rfl]

theorem run_numeral_tail {text : List Char} {m n : Numeral}
    (continued : text.foldlM Numeral.step m = some n)
    (stack : List Frame) (expect : Expect) :
    run ⟨.numeral m, stack, expect⟩ text = some ⟨.numeral n, stack, expect⟩ := by
  induction text generalizing m with
  | nil =>
      cases continued
      rfl
  | cons c text ih =>
      rw [List.foldlM_cons] at continued
      cases next : m.step c with
      | none => simp [next] at continued
      | some m' =>
          rw [next] at continued
          simp only [run_cons, step, next]
          exact ih continued

/-- **A numeral is taken up whole** where a value may stand. -/
theorem run_numeral {text : List Char} {n : Numeral} (scanned : Numeral.scan text = some n)
    (stack : List Frame) (expect : Expect)
    (wants : wantsValue ⟨.between, stack, expect⟩ = true) :
    run ⟨.between, stack, expect⟩ text = some ⟨.numeral n, stack, expect⟩ := by
  cases text with
  | nil => simp [Numeral.scan] at scanned
  | cons c text =>
      obtain ⟨m, begun, continued⟩ := Option.bind_eq_some_iff.1 scanned
      rw [run_cons]
      simp only [step, stepBetween_numeral wants begun, Option.bind_some]
      exact run_numeral_tail continued stack expect

/-- A numeral ends at a character that cannot continue it. -/
theorem step_numeral_end {n : Numeral} {l : Literal} (literal : n.literal? = some l)
    {c : Char} (ends : Numeral.ends c = true) (stack : List Frame) (expect : Expect) :
    step ⟨.numeral n, stack, expect⟩ c =
      (complete stack (.number l)).bind fun r => r.stepBetween c := by
  simp only [step, n.step_of_ends ends, literal]
  rfl

/-! ## Open containers -/

/-- Some container is open, and nothing has been read to the end. -/
def Open (r : Reader) : Prop := r.stack ≠ [] ∧ ∀ v, r.expect ≠ .nothing v

/-- A text may not end inside of a container. -/
theorem Open.finish {r : Reader} (isOpen : r.Open) : r.finish = none := by
  obtain ⟨lexeme, stack, expect⟩ := r
  obtain ⟨inside, unfinished⟩ := isOpen
  cases lexeme <;> cases expect <;> simp_all [Reader.finish]

theorem Open.complete {stack : List Frame} (inside : stack ≠ []) {v : Source} {r : Reader}
    (h : complete stack v = some r) : r.Open := by
  cases stack with
  | nil => exact absurd rfl inside
  | cons frame rest =>
      cases frame <;> simp only [Reader.complete, Option.some.injEq, reduceCtorEq] at h <;>
        (subst h; exact ⟨by simp, by simp⟩)

theorem Open.completeText {r r' : Reader} (isOpen : r.Open) {units : List CodeUnit}
    (h : r.completeText units = some r') : r'.Open := by
  unfold Reader.completeText at h
  split at h
  · exact Open.complete isOpen.1 h
  · split at h
    · cases h
      exact ⟨by simp, by simp⟩
    · cases h

/-- Outside of tokens, only a closing bracket can close a container. -/
theorem Open.stepBetween {r r' : Reader} (isOpen : r.Open) {c : Char} (notBracket : c ≠ ']')
    (notBrace : c ≠ '}') (h : r.stepBetween c = some r') : r'.Open := by
  simp only [Reader.stepBetween, notBracket, notBrace, if_false] at h
  repeat' split at h
  all_goals simp only [Option.some.injEq, reduceCtorEq, Option.map_eq_some_iff] at h
  -- the stack is kept or grows, and what is expected is kept or is no end
  all_goals first
    | (subst h; exact isOpen)
    | (subst h; exact ⟨isOpen.1, nofun⟩)
    | (subst h; exact ⟨List.cons_ne_nil _ _, nofun⟩)
    | (obtain ⟨n, -, rfl⟩ := h; exact isOpen)

/-- Only a closing bracket can close a container. -/
theorem Open.step {r r' : Reader} (isOpen : r.Open) {c : Char} (notBracket : c ≠ ']')
    (notBrace : c ≠ '}') (h : r.step c = some r') : r'.Open := by
  obtain ⟨lexeme, stack, expect⟩ := r
  have inside : stack ≠ [] := isOpen.1
  cases lexeme with
  | between => exact isOpen.stepBetween notBracket notBrace h
  | text units =>
      simp only [Reader.step] at h
      repeat' split at h
      · exact isOpen.completeText h
      · cases h
        exact isOpen
      · cases h
      · cases h
        exact isOpen
  | escape units =>
      simp only [Reader.step] at h
      split at h
      · cases h
        exact isOpen
      · obtain ⟨d, -, rfl⟩ := Option.map_eq_some_iff.1 h
        exact isOpen
  | hex units value owed =>
      obtain ⟨d, -, rfl⟩ := Option.map_eq_some_iff.1 h
      dsimp only
      split <;> exact isOpen
  | numeral n =>
      simp only [Reader.step] at h
      split at h
      · cases h
        exact isOpen
      · obtain ⟨l, -, h⟩ := Option.bind_eq_some_iff.1 h
        obtain ⟨completed, closed, h⟩ := Option.bind_eq_some_iff.1 h
        exact (Open.complete inside closed).stepBetween notBracket notBrace h
  | word rest value =>
      simp only [Reader.step] at h
      repeat' split at h
      · cases h
      · cases h
      · exact Open.complete inside h
      · cases h
        exact isOpen

/-- **A text without closing brackets leaves a container open.** -/
theorem run_open {r r' : Reader} (isOpen : r.Open) {text : List Char}
    (unclosed : ∀ c ∈ text, c ≠ ']' ∧ c ≠ '}') (h : r.run text = some r') : r'.Open := by
  induction text generalizing r with
  | nil =>
      cases h
      exact isOpen
  | cons c text ih =>
      rw [run_cons] at h
      obtain ⟨next, stepped, h⟩ := Option.bind_eq_some_iff.1 h
      obtain ⟨notBracket, notBrace⟩ := unclosed c (by simp)
      exact ih (isOpen.step notBracket notBrace stepped)
        (fun d member => unclosed d (List.mem_cons_of_mem _ member)) h

end Reader

end Json

end Retrieval
