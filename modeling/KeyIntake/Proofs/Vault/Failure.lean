import KeyIntake.Proofs.Text.Basic
import KeyIntake.Vault.Client
import Mathlib.Data.List.Infix
/-!
# Which failures count as not found

A failed exchange becomes a fault whose kind is read off the text of the failure. Over a network
whose replies have statuses of three digits, that text announces that something is not found just in
case the vault has answered with the status 404: no other text has that number in it, or those
words.

## Main definitions

* `Network.SpeaksHttp` — replies have statuses of three digits.
* `Exchange.Failure.IsPlain` — the failures that a reply can lead to.
* `Client.told`, `Client.listed` — what a reply to a client holds, and what a list of names holds.

## Main results

* `Exchange.Failure.isNotFound_fault_iff` — which failures count as not found.
* `Client.told_isPlain` — the failures of an exchange.
-/

set_option relaxedAutoImplicit false
set_option autoImplicit false

namespace KeyIntake

/-! ### Texts that occur in texts -/

namespace Fault

/-- A text occurs in another one iff it is a stretch of it. -/
theorem occurs_iff {needle text : List Char} : occurs needle text = true ↔ needle <:+: text := by
  induction text with
  | nil => rw [occurs, List.isEmpty_iff, List.infix_nil]
  | cons c text ih =>
    rw [occurs, Bool.or_eq_true, List.isPrefixOf_iff_prefix, ih, List.infix_cons_iff]

/-- A text does not begin in a stretch that lacks its first character. -/
lemma infix_append_iff_of_not_mem {c : Char} {needle pre rest : List Char} (h : c ∉ pre) :
    c :: needle <:+: pre ++ rest ↔ c :: needle <:+: rest := by
  induction pre with
  | nil => rfl
  | cons d pre ih =>
    rw [List.mem_cons, not_or] at h
    rw [List.cons_append, List.infix_cons_iff, ih h.2, or_iff_right_iff_imp]
    exact fun hprefix => absurd (List.cons_prefix_cons.mp hprefix).1 h.1

/-- A text does not end in a character that it lacks. -/
lemma infix_concat_iff_of_not_mem {c : Char} {needle text : List Char} (h : c ∉ needle)
    (hne : needle ≠ []) : needle <:+: text ++ [c] ↔ needle <:+: text := by
  rw [List.infix_concat_iff, or_iff_right_iff_imp, List.suffix_concat_iff]
  rintro (rfl | ⟨t, rfl, -⟩)
  · exact absurd rfl hne
  · exact absurd (List.mem_append_right t (List.mem_singleton_self c)) h

end Fault

/-! ### The texts of failures -/

namespace Exchange.Failure

/-- What the text of a refusal says before the status, in lower case. -/
def refusalOpening : List Char := "the vault server returned an error (status code ".toList

/-- Three texts one after the other are lowered one by one. -/
lemma lowered_append (a b c : String) :
    (a ++ b ++ c).toList.map Char.toLower =
      a.toList.map Char.toLower ++ (b.toList.map Char.toLower ++ c.toList.map Char.toLower) := by
  simp only [String.toList_append, List.map_append, List.append_assoc]

/-- The text of a refusal in lower case: the opening, the status and a bracket. -/
lemma lowered_refused (status : Nat) :
    (refused status).message.toList.map Char.toLower =
      refusalOpening ++ (Nat.toDigits 10 status ++ [')']) := by
  have hopening : "The Vault server returned an error (status code ".toList.map Char.toLower =
      refusalOpening := by decide
  have hdigits : (Text.decimal status).toList.map Char.toLower = Nat.toDigits 10 status := by
    rw [Text.decimal, String.toList_ofList]
    refine (List.map_congr_left fun c hc => ?_).trans (List.map_id _)
    exact Text.toLower_of_isDigit (Nat.isDigit_of_mem_toDigits (by decide) (by decide) hc)
  have hbracket : ")".toList.map Char.toLower = [')'] := by decide
  exact (lowered_append _ _ _).trans
    (congrArg₂ (· ++ ·) hopening (congrArg₂ (· ++ ·) hdigits hbracket))

/-- **A refusal has the number 404 in its text** iff that is its status, if this has no more than
three digits. -/
lemma occurs_lowered_refused_iff {status : Nat} (h : status < 1000) :
    Fault.occurs "404".toList ((refused status).message.toList.map Char.toLower) = true ↔
      status = 404 := by
  have hneedle : "404".toList = Nat.toDigits 10 404 := by decide
  rw [lowered_refused, Fault.occurs_iff, hneedle]
  constructor
  · intro hinfix
    have hdigits : Nat.toDigits 10 404 <:+: Nat.toDigits 10 status :=
      (Fault.infix_concat_iff_of_not_mem (by decide) (by decide)).mp
        ((Fault.infix_append_iff_of_not_mem (by decide)).mp hinfix)
    have hlength : (Nat.toDigits 10 status).length ≤ 3 :=
      (Nat.length_toDigits_le_iff (by decide) (by decide)).mpr h
    rw [← Nat.ofDigitChars_ten_toDigits (n := status),
      ← hdigits.eq_of_length_le hlength, Nat.ofDigitChars_ten_toDigits]
  · rintro rfl
    exact ⟨refusalOpening, [')'], (List.append_assoc _ _ _)⟩

/-- No refusal says that something is not found. -/
lemma not_occurs_lowered_refused (status : Nat) :
    ¬ Fault.occurs "not found".toList ((refused status).message.toList.map Char.toLower) =
      true := by
  rw [lowered_refused, Fault.occurs_iff]
  intro hinfix
  have hmem : 'f' ∈ refusalOpening ++ (Nat.toDigits 10 status ++ [')']) :=
    hinfix.subset (by decide)
  rcases List.mem_append.mp hmem with hmem | hmem
  · exact absurd hmem (by decide)
  · rcases List.mem_append.mp hmem with hmem | hmem
    · exact absurd (Nat.isDigit_of_mem_toDigits (by decide) (by decide) hmem) (by decide)
    · exact absurd hmem (by decide)

/-! ### The kinds of failures -/

/-- The failures that a reply can lead to: a refusal with a status of up to three digits, or a reply
that cannot be used. -/
def IsPlain : Exchange.Failure → Prop
  | refused status => status < 1000
  | unusable | noData | noGrant | badValue => True
  | badScheme _ => False

/-- A text announces that something is not found iff one of two marks occurs in it. -/
lemma isNotFound_classify_iff (text context : String) :
    (Fault.classify text context).isNotFound = true ↔
      Fault.occurs "404".toList (text.toList.map Char.toLower) = true ∨
        Fault.occurs "not found".toList (text.toList.map Char.toLower) = true := by
  rw [Fault.isNotFound, Fault.classify, Fault.kindOfText, ← Bool.or_eq_true]
  dsimp only
  split
  case isTrue h => exact iff_of_true rfl h
  case isFalse h =>
    refine iff_of_false ?_ h
    split
    · decide
    · split <;> decide

/-- **A failure counts as not found** iff the vault has refused with the status 404. -/
theorem isNotFound_fault_iff {f : Exchange.Failure} (h : f.IsPlain) (context : String) :
    (f.fault context).isNotFound = true ↔ f = .refused 404 := by
  rw [fault, isNotFound_classify_iff]
  cases f with
  | refused status =>
    rw [occurs_lowered_refused_iff h, or_iff_left (not_occurs_lowered_refused status),
      refused.injEq]
  | unusable => decide
  | noData => decide
  | noGrant => decide
  | badValue => decide
  | badScheme scheme => exact absurd h id

end Exchange.Failure

/-! ### The failures of an exchange -/

/-- A reply has a status of three digits, if it has one. -/
def Reply.isHttp : Reply → Bool
  | unreachable | dropped => true
  | answered status _ => 100 ≤ status && status < 1000

/-- Replies have statuses of three digits. -/
def Network.SpeaksHttp (n : Network) : Prop := ∀ request, (n request).isHttp = true

namespace Reply

variable {r : Reply} {f : Exchange.Failure}

/-- A reply that is no envelope is refused by the vault or cannot be used. -/
lemma isPlain_of_envelope? (hr : r.isHttp = true) (h : r.envelope? = .error f) : f.IsPlain := by
  unfold envelope? at h
  split at h
  · exact Except.error.inj h ▸ trivial
  · exact Except.error.inj h ▸ trivial
  · exact Except.error.inj h ▸ trivial
  · rename_i status body
    have hstatus : status < 1000 := of_decide_eq_true (Bool.and_eq_true_iff.mp hr).2
    split at h
    · split at h
      · exact absurd h (by simp)
      · exact Except.error.inj h ▸ trivial
    · split at h
      · exact Except.error.inj h ▸ hstatus
      · exact Except.error.inj h ▸ trivial

/-- A reply without data is no envelope, or it is an empty one. -/
lemma isPlain_of_data (hr : r.isHttp = true) (h : r.data = .error f) : f.IsPlain := by
  cases henvelope : r.envelope? with
  | error g =>
    rw [data, henvelope] at h
    exact Except.error.inj h ▸ isPlain_of_envelope? hr henvelope
  | ok envelope =>
    rw [data, henvelope] at h
    simp only [bind, Except.bind] at h
    split at h
    · exact Except.error.inj h ▸ trivial
    · exact absurd h (by simp)

end Reply

namespace Exchange

/-- A demand that is not met has its own failure. -/
lemma eq_of_demand {α : Type} {f g : Failure} {a? : Option α} (h : demand f a? = .error g) :
    g = f := by
  cases a? with
  | none => exact (Except.error.inj h).symm
  | some a => exact absurd h (by simp [demand])

/-- Content that fails only in ways that a reply can lead to. -/
def Content.IsPlain {α : Type} (content : Content α) : Prop :=
  ∀ t f, content t = .error f → f.IsPlain

namespace Content

/-- So does the reading of names. -/
lemma isPlain_names : names.IsPlain := fun _ _ h => eq_of_demand h ▸ trivial

/-- So does the reading of metadata. -/
lemma isPlain_metadata : metadata.IsPlain := by
  intro t f h
  unfold metadata at h
  dsimp only at h
  split at h
  · exact absurd h (by simp)
  · exact absurd h (by simp)
  · exact Except.error.inj h ▸ trivial

end Content

end Exchange

namespace Client

variable {α : Type} (c : Client) (n : Network)

/-- What the reply to a request of a client holds. -/
def told (content : Exchange.Content α) (method : Method) (resource : String) :
    Exchange.Result α :=
  (n (c.request method resource none)).data.bind content

variable {content : Exchange.Content α} {method : Method} {resource : String}

/-- An exchange answers with what the reply holds, or with the fault that the failure is. -/
lemma answer_exchange (context : String) :
    (c.exchange context content method resource none).answer n =
      (c.told n content method resource).mapError (Exchange.Failure.fault context) := by
  rw [exchange, Dialogue.answer, Dialogue.answer, reading, told]
  cases (n (c.request method resource none)).data.bind content <;> rfl

variable {n}

/-- **The failures of an exchange** are those that a reply can lead to. -/
theorem told_isPlain (hn : n.SpeaksHttp) (hcontent : content.IsPlain) {f : Exchange.Failure}
    (h : c.told n content method resource = .error f) : f.IsPlain := by
  rw [told] at h
  cases hdata : (n (c.request method resource none)).data with
  | error g =>
    rw [hdata] at h
    exact Except.error.inj h ▸ Reply.isPlain_of_data (hn _) hdata
  | ok t =>
    rw [hdata] at h
    exact hcontent t f h

/-- What the vault says when it lists names: those that it does not find are none. -/
def listed (n : Network) (resource : String) : Exchange.Result (List String) :=
  match c.told n Exchange.Content.names .list resource with
  | .ok names => .ok names
  | .error f => if f = .refused 404 then .ok [] else .error f

section Listed

variable {c}

/-- Names that the vault says are listed. -/
lemma listed_of_ok {names : List String}
    (h : c.told n Exchange.Content.names .list resource = .ok names) :
    c.listed n resource = .ok names := by
  simp only [listed, h]

/-- No names are listed where nothing is found. -/
lemma listed_of_missing
    (h : c.told n Exchange.Content.names .list resource = .error (.refused 404)) :
    c.listed n resource = .ok [] := by
  simp only [listed, h, ↓reduceIte]

/-- Any other failure is one of the list. -/
lemma listed_of_failed {f : Exchange.Failure}
    (h : c.told n Exchange.Content.names .list resource = .error f) (hf : f ≠ .refused 404) :
    c.listed n resource = .error f := by
  simp only [listed, h, if_neg hf]

end Listed

/-- Names that are listed, or not found, are those that the vault says. -/
lemma orNoNames_exchange (hn : n.SpeaksHttp) (context : String) :
    orNoNames ((c.exchange context Exchange.Content.names .list resource none).answer n) =
      (c.listed n resource).mapError (Exchange.Failure.fault context) := by
  rw [answer_exchange, listed]
  cases htold : c.told n Exchange.Content.names .list resource with
  | ok names => rfl
  | error f =>
    have hnotFound := Exchange.Failure.isNotFound_fault_iff
      (c.told_isPlain hn Exchange.Content.isPlain_names htold) context
    show (if (f.fault context).isNotFound then _ else _) = Except.mapError _ (if _ then _ else _)
    by_cases hf : f = .refused 404
    · rw [if_pos hf, if_pos (hnotFound.mpr hf)]
      rfl
    · rw [if_neg hf, if_neg (hnotFound.not.mpr hf)]
      rfl

end Client

/-! ### Networks with a script -/

/-- A successful reply with data. -/
def Reply.envelope (data : Tree) : Reply :=
  .answered 200 (some (.tableOf [("request_id", .text ""), ("lease_id", .text ""),
    ("lease_duration", .unsigned 0), ("renewable", .bool false), ("data", data)]))

/-- A refusal with a status. -/
def Reply.refusal (status : Nat) : Reply :=
  .answered status (some (.tableOf [("errors", .list [])]))

/-- A successful reply that lists names. -/
def Reply.names (names : List String) : Reply :=
  .envelope (.tableOf [("keys", .list (names.map .text))])

/-- The network that has a reply for some URLs and finds nothing elsewhere. -/
def Network.scripted (script : List (String × Reply)) : Network := fun request =>
  (script.lookup request.url).getD (.refusal 404)

/-- A scripted network has statuses of three digits if its script has. -/
lemma Network.speaksHttp_scripted {script : List (String × Reply)}
    (h : ∀ x ∈ script, x.2.isHttp = true) : (scripted script).SpeaksHttp := by
  intro request
  rw [scripted]
  cases hreply : script.lookup request.url with
  | none => rfl
  | some reply =>
    obtain ⟨before, after, rfl, -⟩ := List.lookup_eq_some_iff.mp hreply
    exact h (request.url, reply) (List.mem_append_right _ List.mem_cons_self)

end KeyIntake
