import KeyIntake.Proofs.Vault.Failure
import Mathlib.Data.List.Forall2
/-!
# Which kind of fault a text announces

The kind of a failed exchange is read off its text by a number or some words for each of three
kinds, the first of which counts. The words are found whatever the case of their letters, in
whatever way characters outside ASCII are lowered. The number is found inside longer numbers, too:
so a text is misread just in case the marks of its kind are no more than digits of other numbers.

## Main definitions

* `Fault.Mentions` — words that occur in a text, whatever the case of its letters.
* `Fault.digitRuns` — the numbers of a text.
* `Fault.Kind.IsMarked`, `Fault.Kind.IsAnnounced` — the number of a kind occurs in a text, or is one
  of its numbers, unless the words of the kind occur there.
* `Fault.Lowers` — how a character may be lowered.
* `Fault.Classifies` — what is read off a text in some context.

## Main results

* `Fault.occurs_flatten_iff` — the marks are found in whatever way a text is lowered.
* `Fault.kindOfText_eq_iff` — the kind that is read off a text.
* `Fault.isFirst_isAnnounced_iff` — a kind is the right one iff the text announces it.
-/

set_option relaxedAutoImplicit false
set_option autoImplicit false

namespace KeyIntake

namespace Fault

/-! ### Words and numbers -/

/-- Words occur in a text, whatever the case of its letters. -/
def Mentions (words text : String) : Prop :=
  ∃ stretch, stretch <:+: text.toList ∧ stretch.map Char.toLower = words.toList

/-- The longest runs of digits in a text: its numbers, and an empty one wherever two characters that
are no digits follow each other. -/
def digitRuns (text : String) : List (List Char) := text.toList.splitOnP fun c => !c.isDigit

/-- A number stands in a text by itself and not inside a longer one. -/
def HasNumber (number text : String) : Prop := number.toList ∈ digitRuns text

instance (number text : String) : Decidable (HasNumber number text) :=
  inferInstanceAs (Decidable (_ ∈ _))

/-- What is looked for in a lowered text occurs in the text itself. -/
lemma occurs_map_toLower_iff (words text : String) :
    occurs words.toList (text.toList.map Char.toLower) = true ↔ Mentions words text := by
  rw [occurs_iff, Mentions]
  constructor
  · rintro ⟨before, after, h⟩
    obtain ⟨front, rest, htext, hfront, rfl⟩ := List.map_eq_append_iff.mp h.symm
    obtain ⟨front, stretch, rfl, rfl, hstretch⟩ := List.map_eq_append_iff.mp hfront
    exact ⟨stretch, ⟨front, rest, htext.symm⟩, hstretch⟩
  · rintro ⟨stretch, hinfix, hstretch⟩
    rw [← hstretch]
    exact hinfix.map _

/-- What is left of a text between separators is a stretch of it, the first one at its front. -/
lemma exists_splitOnP_eq_cons {α : Type} (p : α → Bool) (xs : List α) :
    ∃ run runs, xs.splitOnP p = run :: runs ∧ run <+: xs ∧ ∀ r ∈ runs, r <:+: xs := by
  induction xs with
  | nil => exact ⟨[], [], List.splitOnP_nil, List.prefix_rfl, fun r hr => by simp at hr⟩
  | cons x xs ih =>
    obtain ⟨run, runs, hxs, hrun, hruns⟩ := ih
    rw [List.splitOnP_cons_eq_if_modifyHead, hxs]
    split
    case isTrue =>
      refine ⟨[], run :: runs, rfl, List.nil_prefix, fun r hr => List.infix_cons ?_⟩
      rcases List.mem_cons.mp hr with rfl | hr
      · exact hrun.isInfix
      · exact hruns r hr
    case isFalse =>
      exact ⟨x :: run, runs, rfl, List.cons_prefix_cons.mpr ⟨rfl, hrun⟩,
        fun r hr => List.infix_cons (hruns r hr)⟩

/-- The digits of a number that stands in a text occur in it. -/
lemma mentions_of_hasNumber {number text : String} (hdigits : ∀ c ∈ number.toList, c.isDigit = true)
    (h : HasNumber number text) : Mentions number text := by
  obtain ⟨run, runs, hsplit, hrun, hruns⟩ :=
    exists_splitOnP_eq_cons (fun c => !Char.isDigit c) text.toList
  rw [HasNumber, digitRuns, hsplit, List.mem_cons] at h
  refine ⟨number.toList, ?_, ?_⟩
  · rcases h with rfl | h
    · exact hrun.isInfix
    · exact hruns _ h
  · refine (List.map_congr_left fun c hc => ?_).trans (List.map_id _)
    exact Text.toLower_of_isDigit (hdigits c hc)

/-! ### Kinds and their marks -/

/-- The number and the words that stand for a kind, if any do. -/
def Kind.marks? : Kind → Option (String × String)
  | notFound => some ("404", "not found")
  | forbidden => some ("403", "permission denied")
  | unauthenticated => some ("401", "unauthorized")
  | _ => none

/-- The number of a kind, as a row of digits, or its words occur in a text. -/
def Kind.IsMarked (k : Kind) (text : String) : Prop :=
  ∃ marks ∈ k.marks?, Mentions marks.1 text ∨ Mentions marks.2 text

/-- The number of a kind is one of the numbers of a text, or its words occur there. -/
def Kind.IsAnnounced (k : Kind) (text : String) : Prop :=
  ∃ marks ∈ k.marks?, HasNumber marks.1 text ∨ Mentions marks.2 text

/-- A kind is the first of three that has a property, or the one for all else. -/
def Kind.IsFirst (p : Kind → Prop) : Kind → Prop
  | notFound => p notFound
  | forbidden => ¬ p notFound ∧ p forbidden
  | unauthenticated => ¬ p notFound ∧ ¬ p forbidden ∧ p unauthenticated
  | externalService => ¬ p notFound ∧ ¬ p forbidden ∧ ¬ p unauthenticated
  | _ => False

/-- The first kind is the only one. -/
lemma Kind.IsFirst.unique {p : Kind → Prop} {k k' : Kind} (h : k.IsFirst p) (h' : k'.IsFirst p) :
    k = k' := by
  cases k <;> cases k' <;> simp_all [IsFirst]

/-- Which kinds are marked by what. -/
lemma Kind.isMarked_iff {k : Kind} {number words : String} (h : k.marks? = some (number, words))
    (text : String) : k.IsMarked text ↔ Mentions number text ∨ Mentions words text := by
  rw [IsMarked, h]
  simp

/-- A kind that a text announces is marked. -/
lemma Kind.IsAnnounced.isMarked {k : Kind} {text : String} (h : k.IsAnnounced text) :
    k.IsMarked text := by
  obtain ⟨⟨number, words⟩, hmarks, hnumber⟩ := h
  refine ⟨(number, words), hmarks, hnumber.imp_left (mentions_of_hasNumber ?_)⟩
  cases k <;> cases hmarks <;> exact List.all_eq_true.mp (by decide)

/-- **The kind that is read off a text** is the first of three that is marked there. -/
theorem kindOfText_eq_iff (text : String) (k : Kind) :
    kindOfText text = k ↔ k.IsFirst (·.IsMarked text) := by
  have hfirst : (kindOfText text).IsFirst (·.IsMarked text) := by
    have hnotFound := Kind.isMarked_iff (k := .notFound) rfl text
    have hforbidden := Kind.isMarked_iff (k := .forbidden) rfl text
    have hunauthenticated := Kind.isMarked_iff (k := .unauthenticated) rfl text
    simp only [← occurs_map_toLower_iff, ← Bool.or_eq_true] at hnotFound hforbidden hunauthenticated
    unfold kindOfText
    dsimp only
    split_ifs <;>
      simp_all only [Kind.IsFirst, Bool.false_eq_true, not_false_eq_true, and_self]
  exact ⟨fun h => h ▸ hfirst, fun h => hfirst.unique h⟩

/-- **A kind is the right one** iff the text announces it, unless it is the one for all else. -/
theorem isFirst_isAnnounced_iff {text : String} {k : Kind} (h : k.IsFirst (·.IsMarked text)) :
    k.IsFirst (·.IsAnnounced text) ↔ k = .externalService ∨ k.IsAnnounced text := by
  have hnone : ∀ k : Kind, ¬ k.IsMarked text → ¬ k.IsAnnounced text :=
    fun k hk hannounced => hk hannounced.isMarked
  cases k <;> simp_all [Kind.IsFirst]

/-! ### Lower case -/

/-- How a character is lowered, as far as ASCII goes: an ASCII character to one such, the sign for
kelvins to a `k`, a capital `I` with a dot to an `i` and a combining dot, and any other character to
some outside ASCII. -/
inductive Lowers : Char → List Char → Prop
  | ascii {c : Char} : c.toNat < 128 → Lowers c [c.toLower]
  | kelvin : Lowers '\u212a' ['k']
  | dotted : Lowers '\u0130' ['i', '\u0307']
  | beyond {c d : Char} {cs : List Char} : 128 ≤ c.toNat → (∀ x ∈ d :: cs, 128 ≤ x.toNat) →
      Lowers c (d :: cs)

/-- What occurs in a lowered text only where it occurs in the ASCII characters of the text. -/
def IsSteady (mark : List Char) : Prop :=
  (∀ c ∈ mark, c.toNat < 128 ∧ c ≠ 'k') ∧ mark.getLast? ≠ some 'i'

instance (mark : List Char) : Decidable (IsSteady mark) :=
  @instDecidableAnd _ _ (List.decidableBAll (fun c => c.toNat < 128 ∧ c ≠ 'k') mark) inferInstance

/-- A steady mark without its first character is steady. -/
lemma IsSteady.tail {c : Char} {mark : List Char} (h : IsSteady (c :: mark)) : IsSteady mark := by
  refine ⟨fun d hd => h.1 d (List.mem_cons_of_mem c hd), fun hlast => h.2 ?_⟩
  rw [List.getLast?_cons, hlast]
  rfl

/-- What a character outside ASCII is lowered to. -/
lemma Lowers.cases_beyond {c : Char} {block : List Char} (h : Lowers c block) (hc : 128 ≤ c.toNat) :
    block = ['k'] ∨ block = ['i', '\u0307'] ∨
      ∃ d ds, block = d :: ds ∧ ∀ x ∈ d :: ds, 128 ≤ x.toNat := by
  cases h with
  | ascii hlt => omega
  | kelvin => exact .inl rfl
  | dotted => exact .inr (.inl rfl)
  | beyond _ hbeyond => exact .inr (.inr ⟨_, _, rfl, hbeyond⟩)

/-- An ASCII character is lowered to one such. -/
lemma Lowers.eq_of_lt {c : Char} {block : List Char} (h : Lowers c block) (hc : c.toNat < 128) :
    block = [c.toLower] := by
  cases h with
  | ascii => rfl
  | kelvin => exact absurd hc (by decide)
  | dotted => exact absurd hc (by decide)
  | beyond hlarge => omega

/-- No steady mark begins in what a character outside ASCII is lowered to. -/
lemma Lowers.not_prefix {c : Char} {block : List Char} (h : Lowers c block) (hc : 128 ≤ c.toNat)
    {d : Char} {mark : List Char} (hmark : IsSteady (d :: mark)) (rest : List Char) :
    ¬ d :: mark <+: block ++ rest := by
  obtain ⟨hsmall, hk⟩ := hmark.1 d List.mem_cons_self
  intro hprefix
  rcases h.cases_beyond hc with rfl | rfl | ⟨e, es, rfl, hlarge⟩
  · exact hk (List.cons_prefix_cons.mp hprefix).1
  · obtain ⟨rfl, hrest⟩ := List.cons_prefix_cons.mp hprefix
    cases mark with
    | nil => exact hmark.2 rfl
    | cons e mark =>
      have hdot := (hmark.tail.1 e List.mem_cons_self).1
      rw [(List.cons_prefix_cons.mp hrest).1] at hdot
      exact absurd hdot (by decide)
  · have hfirst := hlarge e List.mem_cons_self
    rw [← (List.cons_prefix_cons.mp hprefix).1] at hfirst
    omega

/-- A steady mark begins a lowered text in whatever way that is lowered. -/
lemma prefix_flatten_iff {cs : List Char} {blocks : List (List Char)}
    (h : List.Forall₂ Lowers cs blocks) {mark : List Char} (hmark : IsSteady mark) :
    mark <+: blocks.flatten ↔ mark <+: cs.map Char.toLower := by
  induction h generalizing mark with
  | nil => rfl
  | @cons c block cs blocks hc hcs ih =>
    cases mark with
    | nil => exact iff_of_true List.nil_prefix List.nil_prefix
    | cons d mark =>
      rw [List.flatten_cons, List.map_cons]
      by_cases hascii : c.toNat < 128
      · rw [hc.eq_of_lt hascii, List.singleton_append, List.cons_prefix_cons, List.cons_prefix_cons,
          ih hmark.tail]
      · refine iff_of_false (hc.not_prefix (by omega) hmark _) fun hprefix => ?_
        have hsmall := (hmark.1 d List.mem_cons_self).1
        rw [(List.cons_prefix_cons.mp hprefix).1, Text.toLower_of_le (by omega)] at hsmall
        exact hascii hsmall

/-- **A steady mark is found in whatever way a text is lowered**, if it does not begin with an `i`.

**Proof sketch.** Induction on the text. A mark that begins in an ASCII character goes on in the
same way in both lowered texts, and none begins in what another character is lowered to. -/
theorem infix_flatten_iff {cs : List Char} {blocks : List (List Char)}
    (h : List.Forall₂ Lowers cs blocks) {mark : List Char} (hmark : IsSteady mark)
    (hhead : mark.head? ≠ some 'i') : mark <:+: blocks.flatten ↔ mark <:+: cs.map Char.toLower := by
  obtain _ | ⟨d, mark⟩ := mark
  · exact iff_of_true List.nil_infix List.nil_infix
  obtain ⟨hsmall, hk⟩ := hmark.1 d List.mem_cons_self
  induction h with
  | nil => rfl
  | @cons c block cs blocks hc hcs ih =>
    by_cases hascii : c.toNat < 128
    · have hprefix := prefix_flatten_iff (.cons hc hcs) hmark
      rw [List.flatten_cons, List.map_cons, hc.eq_of_lt hascii, List.singleton_append] at hprefix ⊢
      rw [List.infix_cons_iff, List.infix_cons_iff, hprefix, ih]
    · have hblock : d ∉ block := by
        rcases hc.cases_beyond (by omega) with rfl | rfl | ⟨e, es, rfl, hlarge⟩
        · simpa using hk
        · intro hmem
          rcases List.mem_cons.mp hmem with hi | hdot
          · exact hhead (congrArg some hi)
          · rw [List.mem_singleton.mp hdot] at hsmall
            exact absurd hsmall (by decide)
        · intro hmem
          have hfirst := hlarge d hmem
          omega
      have hchar : d ∉ [c.toLower] := by
        rw [Text.toLower_of_le (by omega), List.mem_singleton]
        rintro rfl
        exact hascii hsmall
      have hcons : (c :: cs).map Char.toLower = [c.toLower] ++ cs.map Char.toLower := rfl
      rw [hcons, List.flatten_cons, infix_append_iff_of_not_mem hblock,
        infix_append_iff_of_not_mem hchar, ih]

/-- The number or the words of a kind occur in a lowered text. -/
def Kind.OccursIn (k : Kind) (lowered : List Char) : Prop :=
  ∃ marks ∈ k.marks?, marks.1.toList <:+: lowered ∨ marks.2.toList <:+: lowered

/-- The marks of kinds are steady. -/
lemma Kind.isSteady_of_marks? {k : Kind} {number words : String}
    (h : k.marks? = some (number, words)) :
    (IsSteady number.toList ∧ number.toList.head? ≠ some 'i') ∧
      IsSteady words.toList ∧ words.toList.head? ≠ some 'i' := by
  cases k <;> cases h <;> decide

/-- A kind is marked in a text iff its number or its words occur in the lowered text. -/
lemma Kind.occursIn_iff {text : String} {blocks : List (List Char)}
    (h : List.Forall₂ Lowers text.toList blocks) (k : Kind) :
    k.OccursIn blocks.flatten ↔ k.IsMarked text := by
  refine exists_congr fun ⟨number, words⟩ => and_congr_right fun hmarks => ?_
  obtain ⟨⟨hnumber, hnumber'⟩, hwords, hwords'⟩ := isSteady_of_marks? hmarks
  rw [infix_flatten_iff h hnumber hnumber', infix_flatten_iff h hwords hwords', ← occurs_iff,
    ← occurs_iff, occurs_map_toLower_iff, occurs_map_toLower_iff]

/-! ### What is read off a text -/

/-- **What is read off the text of a failed exchange**, in the context of what was attempted. -/
structure Classifies (text context : String) : Prop where
  /-- The detail is made of the context and the text as it is. -/
  detail : (classify text context).detail = context ++ ": " ++ text
  /-- The context has no say in the kind. -/
  kind_eq : ∀ context', (classify text context').kind = (classify text context).kind
  /-- The kind is the first one whose number or words occur in the text. -/
  kind_iff : ∀ k, (classify text context).kind = k ↔ k.IsFirst (·.IsMarked text)
  /-- They do just in case they occur in the lowered text. -/
  lowered : ∀ blocks, List.Forall₂ Lowers text.toList blocks →
    ∀ k, (classify text context).kind = k ↔ k.IsFirst (·.OccursIn blocks.flatten)
  /-- The kind is the first one that the text announces iff the text announces it at all. -/
  announced_iff : (classify text context).kind.IsFirst (·.IsAnnounced text) ↔
    (classify text context).kind = .externalService ∨
      (classify text context).kind.IsAnnounced text
  /-- So it is if none of the numbers is a part of a longer one. -/
  announced : (∀ number ∈ ["404", "403", "401"], Mentions number text → HasNumber number text) →
    (classify text context).kind.IsFirst (·.IsAnnounced text)

/-- **The kind of a failed exchange is read off its text**. -/
theorem classifies (text context : String) : Classifies text context := by
  have hkind : ∀ k, (classify text context).kind = k ↔ k.IsFirst (·.IsMarked text) :=
    kindOfText_eq_iff text
  have hiff := isFirst_isAnnounced_iff ((hkind _).mp rfl)
  refine ⟨rfl, fun _ => rfl, hkind, fun blocks hblocks k => ?_, hiff, fun hwhole => ?_⟩
  · simp only [Kind.occursIn_iff hblocks]
    exact hkind k
  · have hannounced : ∀ k : Kind, k.IsAnnounced text ↔ k.IsMarked text := by
      refine fun k => ⟨Kind.IsAnnounced.isMarked, ?_⟩
      rintro ⟨⟨number, words⟩, hmarks, hmention⟩
      refine ⟨(number, words), hmarks, hmention.imp_left (hwhole number ?_)⟩
      cases k <;> cases hmarks <;> simp
    simp only [hannounced]
    exact (hkind _).mp rfl

/-- The text of a connection that was refused at a port. -/
def refusedAtPort : String :=
  "error sending request for url (http://vault:4040/v1/sys/health): connection refused"

/-- **A number inside another one is misread.** A probe that reaches no vault looks as if the vault
had answered it, because of the port; and the settings of a client whose endpoint has no scheme look
like something that was not found, because of the host. -/
theorem port_misread :
    ((classify refusedAtPort "Vault health probe failed").kind = .notFound ∧
      ¬ (classify refusedAtPort "Vault health probe failed").kind.IsFirst
          (·.IsAnnounced refusedAtPort)) ∧
    ∀ n, (Client.connect { endpoint := "vault4040:8200" }).answer n = .fault ⟨.notFound,
      "Failed to build Vault client settings: Invalid scheme for HTTP URL: vault4040"⟩ := by
  have hkind : (classify refusedAtPort "Vault health probe failed").kind = .notFound := by
    decide +kernel
  refine ⟨⟨hkind, ?_⟩, fun n => ?_⟩
  · rw [hkind]
    rintro ⟨⟨number, words⟩, hmarks, hannounced⟩
    cases hmarks
    rw [← occurs_map_toLower_iff] at hannounced
    revert hannounced
    decide +kernel
  · have hparse : Endpoint.parse? "vault4040:8200" =
        some { scheme := "vault4040", host := "", path := "8200" } := by decide +kernel
    have hfault : (Exchange.Failure.badScheme "vault4040").fault
        "Failed to build Vault client settings" = ⟨.notFound,
          "Failed to build Vault client settings: Invalid scheme for HTTP URL: vault4040"⟩ := by
      decide +kernel
    have hscheme : ¬ Client.schemes.contains "vault4040" = true := by decide +kernel
    simp only [Client.connect, hparse, if_neg hscheme, hfault]
    rfl

end Fault

end KeyIntake
