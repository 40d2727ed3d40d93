import Mathlib.Data.List.Infix
import Mathlib.Tactic.Common

namespace Text

/-!
# Escaping by a table of entities

A table says which characters are written as which words.

* `substituteEach` — the characters of the table are replaced one after the other, each in all that
  the replacements before it have written;
* `escape` — every character of the text is replaced by its word, once;
* `substituteEach_eq_escape` — the two are the same if no word holds a character that is replaced
  after it;
* `unescape` — one pass from left to right that reads words back as characters.

In a table of `Entities` every word starts with one mark, which is itself replaced; then `unescape`
undoes `escape` (`unescape_escape`), and every mark of an escaped text starts a word
(`Entities.mark_starts`).
-/

variable {α : Type} [DecidableEq α]

/-- What a character is written as. -/
def word (table : List (α × List α)) (c : α) : List α := (table.lookup c).getD [c]

def escape (table : List (α × List α)) (text : List α) : List α := text.flatMap (word table)

/-- `c` is replaced wherever it stands. -/
def substitute (c : α) (replacement text : List α) : List α :=
  text.flatMap fun c' => if c' = c then replacement else [c']

def substituteEach (table : List (α × List α)) (text : List α) : List α :=
  table.foldl (fun text p => substitute p.1 p.2 text) text

/-- The pass passes over the first characters, which belong to a word already read; then the first
    word of the table that stands here is read. -/
def unescapeFrom (table : List (α × List α)) : Nat → List α → List α
  | _, [] => []
  | n + 1, _ :: cs => unescapeFrom table n cs
  | 0, c :: cs =>
    match table.find? fun p => p.2.isPrefixOf (c :: cs) with
    | some p => p.1 :: unescapeFrom table (p.2.length - 1) cs
    | none => c :: unescapeFrom table 0 cs

def unescape (table : List (α × List α)) (text : List α) : List α := unescapeFrom table 0 text

/-! ### One after the other, and at once -/

section Substitute

variable {table : List (α × List α)}

@[simp] theorem escape_nil : escape table [] = [] := rfl

@[simp] theorem escape_cons (c : α) (text : List α) :
    escape table (c :: text) = word table c ++ escape table text := rfl

/-- **A homomorphism.** -/
@[simp] theorem escape_append (text text' : List α) :
    escape table (text ++ text') = escape table text ++ escape table text' :=
  List.flatMap_append

theorem word_cons (c : α) (replacement : List α) (c' : α) :
    word ((c, replacement) :: table) c' = if c' = c then replacement else word table c' := by
  unfold word
  rw [List.lookup_cons]
  by_cases h : c' = c
  · simp [h]
  · have hne : (c' == c) = false := by simpa using h
    rw [hne, if_neg h]

/-- A character of the table is written as one of its words. -/
theorem word_mem {c : α} (h : c ∈ table.map Prod.fst) : (c, word table c) ∈ table := by
  induction table with
  | nil => cases h
  | cons p table ih =>
    rw [word_cons]
    by_cases hc : c = p.1
    · rw [if_pos hc, hc]
      exact List.mem_cons_self
    · rw [if_neg hc]
      rw [List.map_cons, List.mem_cons] at h
      exact List.mem_cons_of_mem _ (ih (h.resolve_left hc))

theorem word_of_notMem {c : α} (h : c ∉ table.map Prod.fst) : word table c = [c] := by
  have hnone : table.lookup c = none := by
    rw [List.lookup_eq_none_iff]
    intro p hp
    have hne : c ≠ p.1 := fun heq => h (heq ▸ List.mem_map_of_mem hp)
    simpa using hne
  unfold word
  rw [hnone]
  rfl

/-- A text without characters of the table stays as it is. -/
theorem escape_of_notMem {text : List α} (h : ∀ c ∈ text, c ∉ table.map Prod.fst) :
    escape table text = text := by
  induction text with
  | nil => rfl
  | cons c text ih =>
    have hc : word table c = [c] := word_of_notMem (h c List.mem_cons_self)
    have htext : escape table text = text := ih fun c' hc' => h c' (List.mem_cons_of_mem _ hc')
    rw [escape_cons, hc, htext]
    rfl

/-- The replacements of the rest of the table leave the word of the first alone. -/
theorem escape_substitute {c : α} {replacement : List α}
    (h : ∀ c' ∈ replacement, c' ∉ table.map Prod.fst) (text : List α) :
    escape table (substitute c replacement text) = escape ((c, replacement) :: table) text := by
  induction text with
  | nil => rfl
  | cons c' text ih =>
    show escape table ((if c' = c then replacement else [c']) ++ substitute c replacement text) = _
    rw [escape_append, ih, escape_cons, word_cons]
    by_cases hc : c' = c
    · rw [if_pos hc, if_pos hc, escape_of_notMem h]
    · rw [if_neg hc, if_neg hc]
      simp

/-- **One after the other is at once**, if no word holds a character that is replaced later. -/
theorem substituteEach_eq_escape (h : table.Pairwise fun p q => q.1 ∉ p.2) (text : List α) :
    substituteEach table text = escape table text := by
  induction table generalizing text with
  | nil =>
    have hword : ∀ c : α, word ([] : List (α × List α)) c = [c] := fun c => rfl
    show text = text.flatMap (word [])
    rw [show word ([] : List (α × List α)) = fun c => [c] from funext hword]
    exact (List.flatMap_singleton' text).symm
  | cons p table ih =>
    rw [List.pairwise_cons] at h
    have hlater : ∀ c ∈ p.2, c ∉ table.map Prod.fst := by
      intro c hc hmem
      obtain ⟨q, hq, rfl⟩ := List.mem_map.mp hmem
      exact h.1 q hq hc
    show substituteEach table (substitute p.1 p.2 text) = _
    rw [ih h.2, escape_substitute hlater]

/-- A character of an escaped text stands for itself, or in a word. -/
theorem mem_escape {text : List α} {c : α} (h : c ∈ escape table text) :
    c ∉ table.map Prod.fst ∨ ∃ p ∈ table, c ∈ p.2 := by
  obtain ⟨c', -, hc⟩ := List.mem_flatMap.mp h
  by_cases hmem : c' ∈ table.map Prod.fst
  · exact .inr ⟨_, word_mem hmem, hc⟩
  · rw [word_of_notMem hmem, List.mem_singleton] at hc
    exact .inl (hc ▸ hmem)

end Substitute

/-! ### Reading back -/

/-- A table of entities. -/
structure Entities (α : Type) [DecidableEq α] where
  table : List (α × List α)
  mark : α
  /-- Every word is the mark, and then no mark. -/
  marked : ∀ p ∈ table, ∃ rest, p.2 = mark :: rest ∧ mark ∉ rest
  mark_mem : mark ∈ table.map Prod.fst
  /-- No word goes on where another one ends. -/
  told : ∀ p ∈ table, ∀ q ∈ table, p.2 <+: q.2 → p = q

namespace Entities

variable (e : Entities α)

/-- A character that is not replaced is no mark. -/
theorem ne_mark {c : α} (h : c ∉ e.table.map Prod.fst) : c ≠ e.mark := by
  rintro rfl
  exact h e.mark_mem

/-- Where one word stands no other does. -/
theorem find_word {p : α × List α} (hp : p ∈ e.table) (rest : List α) :
    e.table.find? (fun q => q.2.isPrefixOf (p.2 ++ rest)) = some p := by
  have hself : p.2.isPrefixOf (p.2 ++ rest) = true := by
    rw [List.isPrefixOf_iff_prefix]
    exact List.prefix_append _ _
  have hsome : (e.table.find? fun q => q.2.isPrefixOf (p.2 ++ rest)).isSome = true :=
    List.find?_isSome.mpr ⟨p, hp, hself⟩
  obtain ⟨q, hq⟩ := Option.isSome_iff_exists.mp hsome
  have hbegins : q.2 <+: p.2 ++ rest := by simpa using List.find?_some hq
  have hmem : q ∈ e.table := List.mem_of_find?_eq_some hq
  have hqp : q = p := by
    -- Of two words at the same place one is the beginning of the other.
    rcases List.prefix_or_prefix_of_prefix hbegins (List.prefix_append _ _) with hle | hle
    · exact e.told q hmem p hp hle
    · exact (e.told p hp q hmem hle).symm
  rw [hq, hqp]

/-- No word starts with a character that is no mark. -/
theorem find_none {c : α} (hc : c ≠ e.mark) (rest : List α) :
    e.table.find? (fun q => q.2.isPrefixOf (c :: rest)) = none := by
  rw [List.find?_eq_none]
  intro q hq hbegins
  obtain ⟨tail, htail, -⟩ := e.marked q hq
  rw [List.isPrefixOf_iff_prefix, htail, List.cons_prefix_cons] at hbegins
  exact hc hbegins.1.symm

/-- The pass skips what it is told to skip. -/
theorem unescapeFrom_append (skipped rest : List α) :
    unescapeFrom e.table skipped.length (skipped ++ rest) = unescapeFrom e.table 0 rest := by
  induction skipped with
  | nil => rfl
  | cons c skipped ih => exact ih

/-- A word is read as its character. -/
theorem unescape_word {p : α × List α} (hp : p ∈ e.table) (rest : List α) :
    unescape e.table (p.2 ++ rest) = p.1 :: unescape e.table rest := by
  obtain ⟨tail, htail, -⟩ := e.marked p hp
  have hfind := e.find_word hp rest
  unfold unescape
  rw [htail] at hfind ⊢
  simp only [List.cons_append] at hfind ⊢
  simp only [unescapeFrom, hfind]
  rw [htail, List.length_cons, Nat.add_sub_cancel, e.unescapeFrom_append]

/-- A character that is no mark is read as itself. -/
theorem unescape_cons {c : α} (hc : c ≠ e.mark) (rest : List α) :
    unescape e.table (c :: rest) = c :: unescape e.table rest := by
  have hfind := e.find_none hc rest
  unfold unescape
  simp only [unescapeFrom, hfind]

/-- **Escaping is undone.** -/
theorem unescape_escape (text : List α) : unescape e.table (escape e.table text) = text := by
  induction text with
  | nil => rfl
  | cons c text ih =>
    rw [escape_cons]
    by_cases hmem : c ∈ e.table.map Prod.fst
    · have hread := e.unescape_word (word_mem hmem) (escape e.table text)
      rw [hread, ih]
    · rw [word_of_notMem hmem]
      show unescape e.table (c :: escape e.table text) = _
      rw [e.unescape_cons (e.ne_mark hmem), ih]

/-- A mark within a word, and what follows it. -/
theorem mark_starts_word {p : α × List α} (hp : p ∈ e.table) {rest before after : List α}
    (h : p.2 ++ rest = before ++ e.mark :: after) :
    before = [] ∨ ∃ before', rest = before' ++ e.mark :: after := by
  obtain ⟨tail, htail, hno⟩ := e.marked p hp
  cases before with
  | nil => exact .inl rfl
  | cons c before =>
    refine .inr ?_
    rw [htail, List.cons_append, List.cons_append] at h
    have hrest : tail ++ rest = before ++ e.mark :: after := (List.cons.inj h).2
    -- The tail of the word has no mark, so the mark stands after it.
    rcases List.append_eq_append_iff.mp hrest with ⟨gap, hbefore, hrest'⟩ | ⟨gap, htail', hafter⟩
    · exact ⟨gap, hrest'⟩
    · cases gap with
      | nil => exact ⟨[], by simpa using hafter.symm⟩
      | cons c' gap =>
        have hmark : c' = e.mark := (List.cons.inj hafter).1.symm
        exact absurd (by rw [htail', hmark]; simp) hno

/-- **Every mark of an escaped text starts a word of the table.** -/
theorem mark_starts {text before after : List α} (h : escape e.table text = before ++ e.mark :: after) :
    ∃ p ∈ e.table, p.2 <+: e.mark :: after := by
  induction text generalizing before with
  | nil => cases before with
    | nil => cases h
    | cons c before => cases h
  | cons c text ih =>
    rw [escape_cons] at h
    by_cases hmem : c ∈ e.table.map Prod.fst
    · rcases e.mark_starts_word (word_mem hmem) h with rfl | ⟨before', hrest⟩
      · exact ⟨_, word_mem hmem, _, h⟩
      · exact ih hrest
    · rw [word_of_notMem hmem, List.singleton_append] at h
      cases before with
      | nil => exact absurd (List.cons.inj h).1 (e.ne_mark hmem)
      | cons c' before => exact ih (List.cons.inj h).2

end Entities

end Text
