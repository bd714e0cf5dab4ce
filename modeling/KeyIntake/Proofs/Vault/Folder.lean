import KeyIntake.Proofs.Text.Basic
import KeyIntake.Proofs.Vault.Listing
/-!
# Which folder is listed

The folder of the secrets is listed and probed as the settings write it, while the paths of its
secrets are those below the folder without slashes at its ends. Each slash makes the URL of a
resource longer, so the two folders are the same one iff the settings write it without them.

## Main definitions

* `Endpoint.stretch` — how much longer pieces make a path.
* `Client.withFolder` — the client with another folder.
* `Client.ListsAsWritten` — what is asked for when the folder is listed, probed and read.

## Main results

* `Endpoint.resolve_trim_eq_iff` — slashes at the ends of a folder can be told from the URL.
* `Client.listsAsWritten` — the folder that is listed is the one that is read iff it has no slashes
  at its ends.
-/

set_option relaxedAutoImplicit false
set_option autoImplicit false

namespace KeyIntake

namespace Endpoint

/-! ### Pieces -/

variable {slash : Char → Bool}

/-- A text has at least one piece. -/
lemma exists_pieces_eq_cons (slash : Char → Bool) (cs : List Char) :
    ∃ p ps, pieces slash cs = p :: ps := by
  cases cs with
  | nil => exact ⟨[], [], rfl⟩
  | cons c cs =>
    rw [pieces]
    split
    · exact ⟨_, _, rfl⟩
    · split <;> exact ⟨_, _, rfl⟩

/-- A slash parts the pieces before it from those behind it. -/
lemma pieces_append {c : Char} (h : slash c = true) (cs rest : List Char) :
    pieces slash (cs ++ c :: rest) = pieces slash cs ++ pieces slash rest := by
  induction cs with
  | nil =>
    show pieces slash (c :: rest) = [] :: pieces slash rest
    rw [pieces, if_pos h]
  | cons d cs ih =>
    obtain ⟨p, ps, hcs⟩ := exists_pieces_eq_cons slash cs
    rw [List.cons_append, pieces, pieces, ih, hcs]
    split <;> rfl

/-- How much longer pieces make a path that is there: each one by itself and a slash, unless it is
left out. -/
def stretch : List (List Char) → Nat
  | [] => 0
  | p :: ps =>
    (if p = ['.'] ∨ p = ['.', '.'] then 0 else (escape isEscapedInPiece p).length + 1) + stretch ps

/-- Pieces one after the other stretch a path one after the other. -/
lemma stretch_append (ps qs : List (List Char)) :
    stretch (ps ++ qs) = stretch ps + stretch qs := by
  induction ps with
  | nil => rw [List.nil_append, stretch, Nat.zero_add]
  | cons p ps ih => rw [List.cons_append, stretch, stretch, ih, Nat.add_assoc]

/-- **Pieces make a path so much longer.** -/
lemma length_foldl_addPiece (ps : List (List Char)) {path : String} (h : 1 < path.length) :
    (ps.foldl addPiece path).length = path.length + stretch ps := by
  induction ps generalizing path with
  | nil => rfl
  | cons p ps ih =>
    have hpiece : (addPiece path p).length = path.length +
        if p = ['.'] ∨ p = ['.', '.'] then 0 else (escape isEscapedInPiece p).length + 1 := by
      rw [addPiece]
      split
      · rfl
      · have hslash : "/".length = 1 := rfl
        have hlist : (String.ofList (escape isEscapedInPiece p)).length =
            (escape isEscapedInPiece p).length := String.length_ofList
        rw [String.length_append, String.length_append, hslash, hlist]
        omega
    rw [List.foldl_cons, ih (by omega), hpiece, stretch]
    omega

/-- Each slash at the front of a text adds one to what its pieces are worth. -/
lemma stretch_pieces_front {front : List Char} (h : ∀ c ∈ front, slash c = true)
    (cs : List Char) :
    stretch (pieces slash (front ++ cs)) = front.length + stretch (pieces slash cs) := by
  induction front with
  | nil => rw [List.nil_append, List.length_nil, Nat.zero_add]
  | cons c front ih =>
    have hempty : stretch [[]] = 1 := rfl
    have hparted := pieces_append (h c List.mem_cons_self) [] (front ++ cs)
    rw [List.nil_append] at hparted
    rw [List.cons_append, hparted, stretch_append, ih fun d hd => h d (List.mem_cons_of_mem _ hd),
      List.length_cons, pieces, hempty]
    omega

/-- So does each slash at its end. -/
lemma stretch_pieces_back {back : List Char} (h : ∀ c ∈ back, slash c = true)
    (cs : List Char) :
    stretch (pieces slash (cs ++ back)) = stretch (pieces slash cs) + back.length := by
  induction back generalizing cs with
  | nil => rw [List.append_nil, List.length_nil, Nat.add_zero]
  | cons c back ih =>
    have hempty : stretch [[]] = 1 := rfl
    have hback := ih (fun d hd => h d (List.mem_cons_of_mem _ hd)) []
    rw [List.nil_append] at hback
    rw [pieces_append (h c List.mem_cons_self), stretch_append, hback, pieces, hempty,
      List.length_cons]
    omega

/-! ### Slashes -/

/-- The resource of a folder makes the URL so much longer. -/
lemma exists_length_resolve (e : Endpoint) (mount : String) :
    ∃ k, ∀ folder : String, (e.resolve (mount ++ "/metadata/" ++ folder)).length =
      k + stretch (pieces (· = '/') folder.toList) := by
  have hslash : decide ('/' = '/') = true := rfl
  have hpieces : ∀ folder : String, pieces (· = '/') (mount ++ "/metadata/" ++ folder).toList =
      (pieces (· = '/') mount.toList ++ ["metadata".toList]) ++
        pieces (· = '/') folder.toList := by
    intro folder
    have htext : (mount ++ "/metadata/" ++ folder).toList =
        mount.toList ++ '/' :: ("metadata".toList ++ '/' :: folder.toList) := by
      simp [String.toList_append]
    have hword : pieces (· = '/') "metadata".toList = ["metadata".toList] := by decide
    rw [htext, pieces_append hslash, pieces_append hslash, hword, List.append_assoc]
  have hlong : ∀ path, 1 < (addPiece path "metadata".toList).length := by
    intro path
    have hpiece : (escape isEscapedInPiece "metadata".toList).length = 8 := by decide
    rw [addPiece, if_neg (by decide), String.length_append, String.length_ofList, hpiece]
    omega
  -- what stands in front of the folder is the same for all folders
  obtain ⟨front, hfront⟩ : ∃ front, ∀ resource : String, e.resolve resource = front ++
      (pieces (· = '/') resource.toList).foldl addPiece (if e.path.isEmpty then "/" else e.path) :=
    ⟨e.scheme ++ "://" ++ e.host ++ ((e.port.map fun n => ":" ++ Text.decimal n).getD "") ++ "/v1",
      fun resource => String.append_assoc.symm⟩
  refine ⟨front.length + ((pieces (· = '/') mount.toList ++ ["metadata".toList]).foldl addPiece
    (if e.path.isEmpty then "/" else e.path)).length, fun folder => ?_⟩
  rw [hfront, hpieces, List.foldl_append, String.length_append, length_foldl_addPiece,
    Nat.add_assoc]
  rw [List.foldl_append]
  exact hlong _

/-- **Slashes at the ends of a folder can be told from the URL** of its resource. -/
theorem resolve_trim_eq_iff (e : Endpoint) (mount folder : String) :
    e.resolve (mount ++ "/metadata/" ++ String.ofList (Text.trimBy (· == '/') folder.toList)) =
        e.resolve (mount ++ "/metadata/" ++ folder) ↔
      String.ofList (Text.trimBy (· == '/') folder.toList) = folder := by
  refine ⟨fun heq => ?_, fun heq => by rw [heq]⟩
  obtain ⟨k, hlength⟩ := exists_length_resolve e mount
  obtain ⟨front, back, hfolder, hfront, hback⟩ := Text.exists_trimBy (· == '/') folder.toList
  have hslash : ∀ c : Char, (c == '/') = true → decide (c = '/') = true := by simp
  have hequal := hlength (String.ofList (Text.trimBy (· == '/') folder.toList))
  rw [heq, hlength folder, String.toList_ofList] at hequal
  have hstretch : stretch (pieces (· = '/') folder.toList) =
      front.length + (stretch (pieces (· = '/') (Text.trimBy (· == '/') folder.toList)) +
        back.length) := by
    conv_lhs => rw [hfolder]
    rw [stretch_pieces_front fun c hc => hslash c (hfront c hc),
      stretch_pieces_back fun c hc => hslash c (hback c hc)]
  have hnone : front = [] ∧ back = [] := by
    constructor <;> apply List.eq_nil_of_length_eq_zero <;> omega
  rw [hnone.1, hnone.2, List.nil_append, List.append_nil] at hfolder
  rw [← hfolder, String.ofList_toList]

end Endpoint

namespace Client

variable (c : Client)

/-! ### Folders -/

/-- The client with another folder. -/
def withFolder (folder : String) : Client :=
  { c with settings := { c.settings with folder := folder } }

/-- The request that lists the folder. -/
def folderRequest : Request := c.request .list (folderResource c.settings) none

/-- The listing begins with that request. -/
lemma head?_requests_secretPages (n : Network) :
    (c.secretPages.requests n).head? = some c.folderRequest := by
  rw [secretPages]
  simp only [Dialogue.bind_eq, Dialogue.requests_bind]
  rfl

/-- The probe consists of it. -/
lemma requests_probe (n : Network) : c.probe.requests n = [c.folderRequest] := by
  rw [probe]
  simp only [Dialogue.bind_eq, Dialogue.requests_bind]
  rfl

/-- **What is asked for when the folder is listed, probed and read.** -/
structure ListsAsWritten : Prop where
  /-- The listing begins with a request for the folder as it is written. -/
  listing : ∀ n, (c.secretPages.requests n).head? =
    some (c.request .list (c.settings.secretMount ++ "/metadata/" ++ c.settings.folder) none)
  /-- The probe consists of that request. -/
  probe : ∀ n, c.probe.requests n =
    [c.request .list (c.settings.secretMount ++ "/metadata/" ++ c.settings.folder) none]
  /-- The paths of the secrets are below the folder without slashes at its ends. -/
  paths : ∀ name, c.settings.secretPath name =
    if c.settings.innerFolder.isEmpty then name else c.settings.innerFolder ++ "/" ++ name
  /-- For that folder the request is the same one iff it is written without them. -/
  same_iff : (c.withFolder c.settings.innerFolder).folderRequest = c.folderRequest ↔
    c.settings.innerFolder = c.settings.folder
  /-- Then the metadata of each secret are read from below what is listed. -/
  below : c.settings.innerFolder = c.settings.folder → ∀ name,
    metadataResource c.settings (c.settings.secretPath name) =
      folderResource c.settings ++ (if c.settings.folder.isEmpty then "" else "/") ++ name

/-- **The folder is listed and probed as it is written.** -/
theorem listsAsWritten : c.ListsAsWritten where
  listing n := c.head?_requests_secretPages n
  probe n := c.requests_probe n
  paths name := rfl
  same_iff := by
    rw [VaultSettings.innerFolder, ← c.endpoint.resolve_trim_eq_iff c.settings.secretMount]
    constructor
    · intro heq
      exact congrArg Request.url heq
    · intro heq
      exact congrArg (fun url => ({ method := .list, url, token := some c.token } : Request)) heq
  below heq name := by
    rw [metadataResource, folderResource, VaultSettings.secretPath, heq]
    split
    case isTrue hempty =>
      rw [String.isEmpty_iff.mp hempty, String.append_empty, String.append_empty]
    case isFalse => simp only [String.append_assoc]

/-- A vault with one secret in a folder. -/
def folderNetwork : Network := .scripted
  [("http://vault/v1/secret/metadata/signers", .names ["alpha"]),
    ("http://vault/v1/secret/metadata/signers/alpha",
      .envelope (.tableOf [("current_version", .unsigned 1)]))]

/-- **Slashes at the ends of a folder hide its secrets.** The paths of secrets are the same with and
without them, but the folder that is asked for is another one, which the vault does not have. -/
theorem slashes_hide_secrets :
    (sample.withFolder "/signers/").settings.innerFolder =
        (sample.withFolder "signers").settings.innerFolder ∧
      (sample.withFolder "/signers/").folderRequest.url =
        "http://vault/v1/secret/metadata//signers/" ∧
      ((sample.withFolder "/signers/").secretPages.answer folderNetwork).toOption.map
        (fun pages => (Page.intact pages).flatten.map ListingEntry.name) = some [] ∧
      ((sample.withFolder "signers").secretPages.answer folderNetwork).toOption.map
        (fun pages => (Page.intact pages).flatten.map ListingEntry.name) =
          some ["signers/alpha"] := by
  decide +kernel

end Client

end KeyIntake
