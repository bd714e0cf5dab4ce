import KeyIntake.Proofs.TagQuery
import KeyIntake.Proofs.Text.Base64
import KeyIntake.Proofs.Vault.Value
import KeyIntake.Vault.Signing
/-!
# Signatures hold for what was signed

Signing and checking a signature are one request each. Both name the same key and write the payload
in the same way, so a server that holds a signature valid just in case it has issued it confirms the
signature of a payload, and of no other one, whatever is said to it in between.

A server answers in the light of everything that was said before, so that what it has issued is
part of what was said. What it has issued and what it holds valid is put in terms of the fields of
requests and replies, and not of what the client makes of them.

## Main definitions

* `History`, `Server`, `Server.Leads` — what was said, who answers, and what can be said later.
* `Dialogue.serve` — a dialogue with a server.
* `Request.given`, `Reply.given` — what a request or a reply gives under a key.
* `Client.issued` — the signatures that were issued with a key, each with its input.
* `Server.ChecksSignatures` — signatures hold just in case they were issued.
* `Server.ledger` — a server that does this.
* `Client.SignsAndVerifies` — how signing and checking agree.

## Main results

* `Dialogue.serve_network` — networks as servers.
* `Dialogue.leads_serve` — dialogues only add to what was said.
* `Server.checksSignatures_ledger`, `Server.distinguishes_ledger` — what the ledger is good for.
* `Client.signsAndVerifies` — signing and checking agree, with any key.
* `Client.signsAndVerifies_ledger` — a server that confirms a signature, and only for its payload.
-/

set_option relaxedAutoImplicit false
set_option autoImplicit false

namespace KeyIntake

/-! ### Servers -/

/-- What was said with a server: requests with their replies, the oldest ones first. -/
abbrev History := List (Request × Reply)

/-- A server replies to a request in the light of what was said before. -/
abbrev Server := History → Request → Reply

/-- What can be said with a server after a history, which it extends. -/
inductive Server.Leads (s : Server) (h : History) : History → Prop where
  /-- Nothing more was said. -/
  | here : Leads s h h
  /-- One more request was sent. -/
  | ask {h' : History} (request : Request) (before : Leads s h h') :
    Leads s h (h' ++ [(request, s h' request)])

namespace Server.Leads

variable {s : Server} {h h₁ h₂ : History}

/-- What was said later still was said later. -/
lemma trans (h₁₂ : s.Leads h₁ h₂) (h₀₁ : s.Leads h h₁) : s.Leads h h₂ := by
  induction h₁₂ with
  | here => exact h₀₁
  | ask request _ ih => exact ih.ask request

/-- What was said before stays said. -/
lemma prefix_of (h₁₂ : s.Leads h₁ h₂) : h₁ <+: h₂ := by
  induction h₁₂ with
  | here => exact List.prefix_rfl
  | ask request _ ih => exact ih.trans (List.prefix_append _ _)

end Server.Leads

namespace Dialogue

variable {α : Type}

/-- The answer of a dialogue with a server, and what was said by its end. -/
def serve (s : Server) (h : History) : Dialogue α → α × History
  | done a => (a, h)
  | ask request next => serve s (h ++ [(request, s h request)]) (next (s h request))
  | note _ rest => serve s h rest

/-- **A network is a server that does not care about what was said before**: a dialogue has the same
answer and the same requests. -/
theorem serve_network (n : Network) (h : History) (d : Dialogue α) :
    d.serve (fun _ => n) h = (d.answer n, h ++ (d.requests n).map fun r => (r, n r)) := by
  induction d generalizing h with
  | done a => rw [serve, answer, requests, List.map_nil, List.append_nil]
  | ask request next ih =>
    rw [serve, ih, answer, requests, List.map_cons, List.append_assoc, List.singleton_append]
  | note record rest ih => rw [serve, ih, answer, requests]

/-- A dialogue goes on after another one with what was said by its end. -/
lemma serve_bind {β : Type} (s : Server) (h : History) (d : Dialogue α) (next : α → Dialogue β) :
    (d.bind next).serve s h = (next (d.serve s h).1).serve s (d.serve s h).2 := by
  induction d generalizing h with
  | done a => rfl
  | ask request next ih => exact ih _ _
  | note record rest ih => exact ih h

/-- **Dialogues only add to what was said.** -/
theorem leads_serve (s : Server) (h : History) (d : Dialogue α) :
    s.Leads h (d.serve s h).2 := by
  induction d generalizing h with
  | done a => exact .here
  | ask request next ih => exact (ih _ _).trans (Server.Leads.here.ask request)
  | note record rest ih => exact ih h

end Dialogue

/-! ### What is given -/

/-- A table has the last value of each key. -/
lemma Tree.field?_tableOf (fields : List (String × Tree)) (key : String) :
    (tableOf fields).field? key = Dictionary.lastValue? fields key :=
  Dictionary.get?_ofPairs fields key

/-- What a request gives under a key. -/
def Request.given (r : Request) (key : String) : Option Tree := r.body.bind fun t => t.field? key

/-- What the data of a reply give under a key. -/
def Reply.given (r : Reply) (key : String) : Option Tree :=
  r.data.toOption.bind fun t => t.field? key

/-- An envelope gives the fields of its data. -/
lemma Reply.given_envelope (fields : List (String × Tree)) (key : String) :
    (envelope (.tableOf fields)).given key = Dictionary.lastValue? fields key := by
  rw [given, data_envelope rfl]
  exact Tree.field?_tableOf fields key

/-- What is read from the data of a reply is what the reply gives, if this is so for all data. -/
lemma Reply.bind_data_eq_ok_iff {α : Type} {content : Exchange.Content α} {r : Reply} {a : α}
    {key : String} {value : Tree} (h : ∀ {t}, content t = .ok a ↔ t.field? key = some value) :
    r.data.bind content = .ok a ↔ r.given key = some value := by
  rw [given]
  cases r.data with
  | error f => exact iff_of_false (by simp [Except.bind]) (by simp [Except.toOption])
  | ok t => exact h

/-- A field has a value other than null iff this is given under its key. -/
lemma Tree.field_eq_iff {t value : Tree} {key : String} (h : value ≠ null) :
    t.field key = value ↔ t.field? key = some value := by
  rw [field]
  cases t.field? key with
  | none => exact iff_of_false h.symm (Option.some_ne_none value).symm
  | some other => exact Option.some_inj.symm

/-- A tree is a text iff this is read from it. -/
lemma Tree.text?_eq_some_iff {t : Tree} {s : String} : t.text? = some s ↔ t = text s := by
  cases t <;> simp [text?, asText, Misread.here, Except.toOption]

/-- A tree is a truth value iff this is read from it. -/
lemma Tree.bool?_eq_some_iff {t : Tree} {b : Bool} : t.bool? = some b ↔ t = bool b := by
  cases t <;> simp [bool?, asBool, Misread.here, Except.toOption]

/-- A demand is met by a value that was found. -/
lemma Exchange.demand_eq_ok_iff {α : Type} {f : Failure} {found : Option α} {a : α} :
    demand f found = .ok a ↔ found = some a := by
  cases found <;> simp [demand]

/-! ### What is sent -/

namespace Client

variable (c : Client) (k : SigningKey)

/-- Where payloads are signed with a key. -/
def signUrl : String := c.endpoint.resolve (k.mount ++ "/sign/" ++ k.name)

/-- Where signatures with a key are checked. -/
def verifyUrl : String := c.endpoint.resolve (k.mount ++ "/verify/" ++ k.name)

/-- The request that signs a payload. -/
def signRequest (payload : List UInt8) : Request :=
  c.request .post (k.mount ++ "/sign/" ++ k.name) (some (signBody k payload))

/-- The request that checks a signature. -/
def verifyRequest (payload : List UInt8) (signature : String) : Request :=
  c.request .post (k.mount ++ "/verify/" ++ k.name) (some (verifyBody payload signature))

variable (payload : List UInt8) (signature : String)

/-- What is given when a payload is to be signed. -/
lemma given_signRequest (key : String) : (c.signRequest k payload).given key =
    Dictionary.lastValue? (("input", .text (Base64.encode payload)) ::
      (k.version.map fun n => ("key_version", Tree.unsigned n)).toList) key :=
  Tree.field?_tableOf _ key

/-- What is signed is sent in Base64. -/
lemma given_input_signRequest :
    (c.signRequest k payload).given "input" = some (.text (Base64.encode payload)) := by
  rw [given_signRequest]
  cases k.version <;> simp [Dictionary.lastValue?]

/-- The version that the key is pinned to is sent along with what is signed. -/
lemma given_version_signRequest :
    (c.signRequest k payload).given "key_version" = k.version.map Tree.unsigned := by
  rw [given_signRequest]
  cases k.version <;> simp [Dictionary.lastValue?]

/-- No signature is sent along with what is signed. -/
lemma given_signature_signRequest : (c.signRequest k payload).given "signature" = none := by
  rw [given_signRequest]
  cases k.version <;> simp [Dictionary.lastValue?]

/-- What is given when a signature is to be checked. -/
lemma given_verifyRequest (key : String) : (c.verifyRequest k payload signature).given key =
    Dictionary.lastValue?
      [("input", .text (Base64.encode payload)), ("signature", .text signature)] key :=
  Tree.field?_tableOf _ key

/-- What a signature is checked for is sent in Base64. -/
lemma given_input_verifyRequest :
    (c.verifyRequest k payload signature).given "input" =
      some (.text (Base64.encode payload)) := by
  simp [given_verifyRequest, Dictionary.lastValue?]

/-- The signature to check is sent along as it is. -/
lemma given_signature_verifyRequest :
    (c.verifyRequest k payload signature).given "signature" = some (.text signature) := by
  simp [given_verifyRequest, Dictionary.lastValue?]

/-- No version is sent along with a signature to check. -/
lemma given_version_verifyRequest :
    (c.verifyRequest k payload signature).given "key_version" = none := by
  simp [given_verifyRequest, Dictionary.lastValue?]

/-! ### What comes of it -/

variable (s : Server) (h : History)

/-- An exchange is one request, and what its reply holds. -/
lemma serve_exchange {α : Type} (context : String) (content : Exchange.Content α)
    (method : Method) (resource : String) (body : Option Tree) :
    (c.exchange context content method resource body).serve s h =
      (reading context content (s h (c.request method resource body)),
        h ++ [(c.request method resource body, s h (c.request method resource body))]) := rfl

/-- Signing ends in what the reply to its request holds. -/
lemma serve_sign : (c.sign k payload).serve s h =
    (reading ("Failed to sign with key: " ++ k.name) Exchange.Content.signature
        (s h (c.signRequest k payload)),
      h ++ [(c.signRequest k payload, s h (c.signRequest k payload))]) := by
  rw [sign, Dialogue.andThen, Dialogue.serve_bind, serve_exchange, ← signRequest]
  cases reading ("Failed to sign with key: " ++ k.name) Exchange.Content.signature
    (s h (c.signRequest k payload)) <;> rfl

/-- Checking a signature ends in what the reply to its request holds. -/
lemma serve_verify : (c.verify k payload signature).serve s h =
    (reading ("Failed to verify signature with key: " ++ k.name) Exchange.Content.verdict
        (s h (c.verifyRequest k payload signature)),
      h ++ [(c.verifyRequest k payload signature,
        s h (c.verifyRequest k payload signature))]) := by
  rw [verify, serve_exchange, ← verifyRequest]

/-- A reply is read iff it holds what it is read for. -/
lemma reading_eq_ok_iff {α : Type} {context : String} {content : Exchange.Content α}
    {reply : Reply} {value : α} :
    reading context content reply = .ok value ↔ reply.data.bind content = .ok value := by
  rw [reading]
  cases reply.data.bind content <;> simp

/-- A signature is read from a reply iff the reply gives one. -/
lemma reading_signature_eq_ok_iff {context : String} {reply : Reply} {signature : String} :
    reading context Exchange.Content.signature reply = .ok signature ↔
      reply.given "signature" = some (.text signature) := by
  rw [reading_eq_ok_iff, Reply.bind_data_eq_ok_iff]
  intro t
  rw [Exchange.Content.signature, Exchange.demand_eq_ok_iff, Tree.text?_eq_some_iff]
  exact Tree.field_eq_iff (by simp)

/-- A verdict is read from a reply iff the reply gives one. -/
lemma reading_verdict_eq_ok_iff {context : String} {reply : Reply} {valid : Bool} :
    reading context Exchange.Content.verdict reply = .ok valid ↔
      reply.given "valid" = some (.bool valid) := by
  rw [reading_eq_ok_iff, Reply.bind_data_eq_ok_iff]
  intro t
  rw [Exchange.Content.verdict, Exchange.demand_eq_ok_iff, Tree.bool?_eq_some_iff]
  exact Tree.field_eq_iff (by simp)

/-! ### What is issued -/

/-- The input and the signature of an exchange in which one was issued with a key: the request gives
the one, and its reply the other. -/
def issued? (x : Request × Reply) : Option (String × String) :=
  if x.1.method = .post ∧ x.1.url = c.signUrl k then
    match x.1.given "input", x.2.given "signature" with
    | some (.text input), some (.text signature) => some (input, signature)
    | _, _ => none
  else none

/-- The signatures that were issued with a key, each with the input that it was issued for. -/
def issued : List (String × String) := h.filterMap (c.issued? k)

variable {c k payload signature s h} {h₁ h₂ : History}

/-- An exchange in which a signature was issued. -/
lemma issued?_eq_some_iff {r : Request} {reply : Reply} {x : String × String} :
    c.issued? k (r, reply) = some x ↔ (r.method = .post ∧ r.url = c.signUrl k) ∧
      r.given "input" = some (.text x.1) ∧ reply.given "signature" = some (.text x.2) := by
  obtain ⟨input, signature⟩ := x
  rw [issued?]
  split
  case isFalse hurl => exact iff_of_false (Option.some_ne_none _).symm fun hx => hurl hx.1
  case isTrue hurl =>
    rw [and_iff_right hurl]
    dsimp only
    split
    case h_1 input' signature' hinput hsignature => simp [hinput, hsignature]
    case h_2 hno =>
      exact iff_of_false (Option.some_ne_none _).symm fun hx => hno _ _ hx.1 hx.2

/-- What was issued stays issued. -/
lemma mem_issued_of_leads (hleads : s.Leads h₁ h₂) {x : String × String}
    (hx : x ∈ c.issued k h₁) : x ∈ c.issued k h₂ :=
  (hleads.prefix_of.filterMap _).subset hx

/-- A signature that signing ends in was issued for the payload. -/
lemma mem_issued_of_sign (hsign : (c.sign k payload).serve s h = (.ok signature, h₁)) :
    (Base64.encode payload, signature) ∈ c.issued k h₁ := by
  rw [serve_sign, Prod.mk.injEq, reading_signature_eq_ok_iff] at hsign
  obtain ⟨hread, rfl⟩ := hsign
  have hinput := c.given_input_signRequest k payload
  exact List.mem_filterMap.mpr ⟨_, List.mem_append_right _ (List.mem_singleton_self _),
    issued?_eq_some_iff.mpr ⟨⟨rfl, rfl⟩, hinput, hread⟩⟩

end Client

/-! ### Servers that check signatures -/

namespace Server

variable (s : Server) (c : Client) (k : SigningKey)

/-- **A server holds signatures valid that it has issued**, and no others: whatever was said before,
a request that gives an input and a signature gets a reply that says whether the signature is valid,
and it is valid iff it was issued for this input. -/
def ChecksSignatures : Prop :=
  ∀ h, s.Leads [] h → ∀ r : Request, r.method = .post → r.url = c.verifyUrl k →
    ∀ input signature, r.given "input" = some (.text input) →
      r.given "signature" = some (.text signature) →
      ∃ valid, (s h r).given "valid" = some (.bool valid) ∧
        (valid = true ↔ (input, signature) ∈ c.issued k h)

/-- A server issues different signatures for different inputs. -/
def Distinguishes : Prop :=
  ∀ h, s.Leads [] h → ∀ input₁ input₂ signature, (input₁, signature) ∈ c.issued k h →
    (input₂, signature) ∈ c.issued k h → input₁ = input₂

end Server

/-! ### A server that keeps a ledger -/

namespace Server

variable (c : Client) (k : SigningKey)

/-- A server whose signatures are the inputs with a mark in front, and which looks up in what was
said before whether it has issued a signature. -/
def ledger : Server := fun h r =>
  match r.given "input", r.given "signature" with
  | some (.text input), some (.text signature) =>
    .envelope (.tableOf [("valid", .bool ((c.issued k h).contains (input, signature)))])
  | some (.text input), _ => .envelope (.tableOf [("signature", .text ("vault:v1:" ++ input))])
  | _, _ => .refusal 400

/-- The server that keeps a ledger holds signatures valid that it has issued. -/
theorem checksSignatures_ledger : (ledger c k).ChecksSignatures c k := by
  intro h _ r _ _ input signature hinput hsignature
  refine ⟨(c.issued k h).contains (input, signature), ?_, List.contains_iff_mem⟩
  simp only [ledger, hinput, hsignature]
  exact Reply.given_envelope _ _

/-- The server that keeps a ledger signs every payload. -/
theorem serve_sign_ledger (h : History) (payload : List UInt8) :
    ((c.sign k payload).serve (ledger c k) h).1 =
      .ok ("vault:v1:" ++ Base64.encode payload) := by
  rw [Client.serve_sign, Client.reading_signature_eq_ok_iff]
  simp only [ledger, c.given_input_signRequest k payload, c.given_signature_signRequest k payload]
  exact Reply.given_envelope _ _

/-- A signature of the server that keeps a ledger is the input with a mark in front. -/
lemma eq_of_issued?_ledger {h : History} {r : Request} {x : String × String}
    (hx : c.issued? k (r, ledger c k h r) = some x) : x.2 = "vault:v1:" ++ x.1 := by
  obtain ⟨-, hinput, hissued⟩ := Client.issued?_eq_some_iff.mp hx
  unfold ledger at hissued
  split at hissued
  case h_1 =>
    -- a verdict is no signature
    rw [Reply.given_envelope] at hissued
    cases hissued
  case h_2 input hinput' _ =>
    obtain rfl := Tree.text.inj (Option.some.inj (hinput'.symm.trans hinput))
    rw [Reply.given_envelope] at hissued
    exact (Tree.text.inj (Option.some.inj hissued)).symm
  case h_3 =>
    cases hissued

/-- All signatures that were issued are inputs with a mark in front. -/
lemma eq_of_mem_issued_ledger {h : History} (hh : (ledger c k).Leads [] h) {x : String × String}
    (hx : x ∈ c.issued k h) : x.2 = "vault:v1:" ++ x.1 := by
  induction hh with
  | here => cases hx
  | @ask h' request before ih =>
    rw [Client.issued, List.filterMap_append, List.mem_append] at hx
    rcases hx with hold | hnew
    · exact ih hold
    · obtain ⟨y, hy, hissued⟩ := List.mem_filterMap.mp hnew
      obtain rfl := List.mem_singleton.mp hy
      exact eq_of_issued?_ledger c k hissued

/-- The server that keeps a ledger issues different signatures for different inputs. -/
theorem distinguishes_ledger : (ledger c k).Distinguishes c k := by
  intro h hh input₁ input₂ signature h₁ h₂
  have heq₁ : signature = "vault:v1:" ++ input₁ := eq_of_mem_issued_ledger c k hh h₁
  have heq₂ : signature = "vault:v1:" ++ input₂ := eq_of_mem_issued_ledger c k hh h₂
  exact String.append_right_inj _ |>.mp (heq₁.symm.trans heq₂)

end Server

/-! ### What a server that checks signatures answers -/

namespace Client

variable {c : Client} {k : SigningKey} {s : Server} {h h₁ h₂ : History} {payload : List UInt8}
  {signature : String}

/-- A server that checks signatures answers a client that asks: a signature of a payload is valid
iff it was issued for the text of this payload. -/
lemma serve_verify_of_checks (hs : s.ChecksSignatures c k) (hh : s.Leads [] h)
    (payload : List UInt8) (signature : String) :
    ∃ valid, ((c.verify k payload signature).serve s h).1 = .ok valid ∧
      (valid = true ↔ (Base64.encode payload, signature) ∈ c.issued k h) := by
  have hinput := c.given_input_verifyRequest k payload signature
  have hsignature := c.given_signature_verifyRequest k payload signature
  obtain ⟨valid, hread, hvalid⟩ := hs h hh (c.verifyRequest k payload signature) rfl rfl _ _
    hinput hsignature
  refine ⟨valid, ?_, hvalid⟩
  rw [serve_verify]
  exact reading_verdict_eq_ok_iff.mpr hread

/-- What is said after a payload was signed can be said from the start. -/
lemma leads_of_sign (hh : s.Leads [] h)
    (hsign : (c.sign k payload).serve s h = (.ok signature, h₁)) (hleads : s.Leads h₁ h₂) :
    s.Leads [] h₂ := by
  have hfirst := Dialogue.leads_serve s h (c.sign k payload)
  rw [hsign] at hfirst
  exact hleads.trans (hfirst.trans hh)

/-- What was signed is confirmed, whatever is said in between. -/
lemma serve_verify_of_sign (hs : s.ChecksSignatures c k) (hh : s.Leads [] h)
    (hsign : (c.sign k payload).serve s h = (.ok signature, h₁)) (hleads : s.Leads h₁ h₂) :
    ((c.verify k payload signature).serve s h₂).1 = .ok true := by
  obtain ⟨valid, hanswer, hvalid⟩ :=
    serve_verify_of_checks hs (leads_of_sign hh hsign hleads) payload signature
  have hissued := mem_issued_of_leads hleads (mem_issued_of_sign hsign)
  rw [hanswer, hvalid.mpr hissued]

/-- What was not signed is not confirmed with a signature of something else, whatever is said in
between. -/
lemma serve_verify_of_sign_of_ne (hs : s.ChecksSignatures c k) (hd : s.Distinguishes c k)
    (hh : s.Leads [] h) (hsign : (c.sign k payload).serve s h = (.ok signature, h₁))
    (hleads : s.Leads h₁ h₂) {other : List UInt8} (hne : other ≠ payload) :
    ((c.verify k other signature).serve s h₂).1 = .ok false := by
  have hlater := leads_of_sign hh hsign hleads
  obtain ⟨valid, hanswer, hvalid⟩ := serve_verify_of_checks hs hlater other signature
  have hissued := mem_issued_of_leads hleads (mem_issued_of_sign hsign)
  cases valid with
  | false => exact hanswer
  | true =>
    have hinput := hd h₂ hlater _ _ _ (hvalid.mp rfl) hissued
    exact absurd (Base64.encode_inj.mp hinput) hne

/-! ### Signing and checking agree -/

/-- **How signing and checking agree** for a key: what is sent for either of them, and what a server
that checks signatures makes of it. -/
structure SignsAndVerifies (c : Client) (k : SigningKey) : Prop where
  /-- Signing sends one request. -/
  signs : ∀ (s : Server) h payload, ((c.sign k payload).serve s h).2 =
    h ++ [(c.signRequest k payload, s h (c.signRequest k payload))]
  /-- Checking sends one request. -/
  verifies : ∀ (s : Server) h payload signature, ((c.verify k payload signature).serve s h).2 =
    h ++ [(c.verifyRequest k payload signature, s h (c.verifyRequest k payload signature))]
  /-- Both name the mount and the name of the key. -/
  names_key : ∀ payload payload' signature,
    (c.signRequest k payload).url = c.endpoint.resolve (k.mount ++ "/sign/" ++ k.name) ∧
      (c.verifyRequest k payload' signature).url =
        c.endpoint.resolve (k.mount ++ "/verify/" ++ k.name)
  /-- They give the same input iff they are about the same payload. -/
  input_eq_iff : ∀ payload payload' signature,
    (c.signRequest k payload).given "input" =
        (c.verifyRequest k payload' signature).given "input" ↔
      payload = payload'
  /-- The input denotes the payload in Base64. -/
  input_denotes : ∀ payload, ∃ text,
    (c.signRequest k payload).given "input" = some (.text text) ∧
      Base64.decode? text = some payload
  /-- The version is sent along with what is signed iff the key is pinned to one. -/
  version_sent : ∀ payload,
    (c.signRequest k payload).given "key_version" = k.version.map Tree.unsigned
  /-- No version is sent along with a signature to check. -/
  version_unsent : ∀ payload signature,
    (c.verifyRequest k payload signature).given "key_version" = none
  /-- The signature is sent along with what it is checked for. -/
  signature_sent : ∀ payload signature,
    (c.verifyRequest k payload signature).given "signature" = some (.text signature)
  /-- Signing ends in the signature that the reply gives, if it gives one. -/
  signed : ∀ (s : Server) h payload signature,
    ((c.sign k payload).serve s h).1 = .ok signature ↔
      (s h (c.signRequest k payload)).given "signature" = some (.text signature)
  /-- Checking ends in the verdict that the reply gives, if it gives one. -/
  checked : ∀ (s : Server) h payload signature valid,
    ((c.verify k payload signature).serve s h).1 = .ok valid ↔
      (s h (c.verifyRequest k payload signature)).given "valid" = some (.bool valid)
  /-- A server that checks signatures confirms what was signed, at any later time. -/
  confirmed : ∀ s : Server, s.ChecksSignatures c k → ∀ h, s.Leads [] h →
    ∀ payload signature h₁, (c.sign k payload).serve s h = (.ok signature, h₁) →
      ∀ h₂, s.Leads h₁ h₂ → ((c.verify k payload signature).serve s h₂).1 = .ok true
  /-- If its signatures differ for different inputs, it confirms them for nothing else. -/
  rejected : ∀ s : Server, s.ChecksSignatures c k → s.Distinguishes c k → ∀ h, s.Leads [] h →
    ∀ payload signature h₁, (c.sign k payload).serve s h = (.ok signature, h₁) →
      ∀ h₂, s.Leads h₁ h₂ → ∀ other, other ≠ payload →
        ((c.verify k other signature).serve s h₂).1 = .ok false

/-- **Signing and checking agree** with any client and any key.

**Proof sketch.** The two requests give the same text as input, which denotes the payload. So the
signature that signing ends in was issued for the very text that is checked later, and what was
issued stays issued, because dialogues only add to what was said. A different payload has a
different text, for which the signature was not issued if the server tells inputs apart. -/
theorem signsAndVerifies (c : Client) (k : SigningKey) : SignsAndVerifies c k where
  signs s h payload := by rw [serve_sign]
  verifies s h payload signature := by rw [serve_verify]
  names_key payload payload' signature := ⟨rfl, rfl⟩
  input_eq_iff payload payload' signature := by
    rw [given_input_signRequest, given_input_verifyRequest, Option.some.injEq, Tree.text.injEq,
      Base64.encode_inj]
  input_denotes payload :=
    ⟨_, c.given_input_signRequest k payload, Base64.decode?_encode payload⟩
  version_sent := c.given_version_signRequest k
  version_unsent := c.given_version_verifyRequest k
  signature_sent := c.given_signature_verifyRequest k
  signed s h payload signature := by rw [serve_sign, reading_signature_eq_ok_iff]
  checked s h payload signature valid := by rw [serve_verify, reading_verdict_eq_ok_iff]
  confirmed s hs h hh payload signature h₁ hsign h₂ hleads :=
    serve_verify_of_sign hs hh hsign hleads
  rejected s hs hd h hh payload signature h₁ hsign h₂ hleads other hne :=
    serve_verify_of_sign_of_ne hs hd hh hsign hleads hne

/-- A key to sign with. -/
def sampleKey : SigningKey where
  mount := "transit"
  name := "signer"
  version := some 2
  id := "http://vault/v1/transit/keys/signer"

/-- What was said with the server that keeps a ledger when the byte one was signed. -/
def signedOnce : History :=
  ((sample.sign sampleKey [1]).serve (Server.ledger sample sampleKey) []).2

/-- What was said with it when the byte two was signed after that. -/
def signedTwice : History :=
  ((sample.sign sampleKey [2]).serve (Server.ledger sample sampleKey) signedOnce).2

/-- The server that keeps a ledger confirms the signature of the byte one for this byte after it has
signed the byte two as well, and confirms it for no other payload. -/
theorem signsAndVerifies_ledger :
    (Server.ledger sample sampleKey).ChecksSignatures sample sampleKey ∧
      (Server.ledger sample sampleKey).Distinguishes sample sampleKey ∧
      (sample.sign sampleKey [1]).serve (Server.ledger sample sampleKey) [] =
        (.ok "vault:v1:AQ==", signedOnce) ∧
      ((sample.verify sampleKey [1] "vault:v1:AQ==").serve (Server.ledger sample sampleKey)
        signedTwice).1 = .ok true ∧
      ∀ other, other ≠ [1] →
        ((sample.verify sampleKey other "vault:v1:AQ==").serve (Server.ledger sample sampleKey)
          signedTwice).1 = .ok false := by
  have h := signsAndVerifies sample sampleKey
  have hchecks := Server.checksSignatures_ledger sample sampleKey
  have hdistinct := Server.distinguishes_ledger sample sampleKey
  have hsigned : (sample.sign sampleKey [1]).serve (Server.ledger sample sampleKey) [] =
      (.ok "vault:v1:AQ==", signedOnce) :=
    Prod.ext_iff.mpr ⟨Server.serve_sign_ledger sample sampleKey [] [1], rfl⟩
  have hleads : (Server.ledger sample sampleKey).Leads signedOnce signedTwice :=
    Dialogue.leads_serve _ signedOnce (sample.sign sampleKey [2])
  exact ⟨hchecks, hdistinct, hsigned,
    h.confirmed _ hchecks [] .here [1] _ _ hsigned _ hleads,
    h.rejected _ hchecks hdistinct [] .here [1] _ _ hsigned _ hleads⟩

end Client

end KeyIntake
