import KeyIntake.Proofs.Load.Agenda
import KeyIntake.Proofs.Vault.Failure
import KeyIntake.Vault.Intake
/-!
# The listing of secrets against its reference

The vault names its secrets in one reply, and each secret's metadata are read on their own. The
reference goes through the names once: folders are left out, and each other name becomes a path and
then the entry that the metadata of that path call for, if any. The listing is the reference cut
into blocks of paths, whatever their length.

## Main definitions

* `Client.folderAnswer`, `Client.metadataAnswer` — what the vault says.
* `Client.entryAt` — the entry that a path calls for.
* `Client.ListsSecrets` — the listing of the secrets against its reference.

## Main results

* `Paging.pages_eq` — the pages of a list are its blocks.
* `Client.answer_readPages` — the pages that are read.
* `Client.listsSecrets_secretPages` — the listing of the secrets.
-/

set_option relaxedAutoImplicit false
set_option autoImplicit false

namespace KeyIntake

/-! ### Blocks of a list -/

/-- **The pages of a list are its blocks**: as many as it takes to hold the list, each but the last
of the full length. -/
theorem Paging.pages_eq {α : Type} (length : Nat) (xs : List α) :
    pages length xs =
      (List.range ((xs.length + max 1 length - 1) / max 1 length)).map fun j =>
        (xs.drop (j * max 1 length)).take (max 1 length) := by
  fun_induction pages length xs with
  | case1 =>
    have hzero : ([] : List α).length + max 1 length - 1 < max 1 length := by
      rw [List.length_nil]
      omega
    rw [Nat.div_eq_of_lt hzero]
    rfl
  | case2 x xs ih =>
    have hblocks : ((x :: xs).length + max 1 length - 1) / max 1 length =
        (((x :: xs).drop (max 1 length)).length + max 1 length - 1) / max 1 length + 1 := by
      have hpos : 0 < max 1 length := by omega
      rw [← Nat.add_div_right _ hpos, List.length_drop, List.length_cons]
      rcases Nat.lt_or_ge xs.length (max 1 length) with hlt | hge
      · rw [Nat.div_eq_of_lt_le (k := 1) (by omega) (by omega),
          Nat.div_eq_of_lt_le (k := 1) (by omega) (by omega)]
      · congr 1
        omega
    rw [ih, hblocks, List.range_succ_eq_map, List.map_cons, List.map_map, Nat.zero_mul,
      List.drop_zero]
    congr 1
    refine List.map_congr_left fun j _ => ?_
    rw [Function.comp_apply, List.drop_drop, Nat.succ_mul, Nat.add_comm (max 1 length)]

/-! ### Pages that arrive -/

/-- Pages that all arrive are intact. -/
lemma Page.intact_map_ok {α : Type} (f : α → List ListingEntry) (xs : List α) :
    intact (xs.map fun x => { content := .ok (f x) }) = xs.map f := by
  induction xs with
  | nil => rfl
  | cons x rest ih => rw [List.map_cons, intact_cons_ok _ rfl, ih, List.map_cons]

/-- Of pages that arrive none fails. -/
lemma Page.failure?_map_ok {α : Type} (f : α → List ListingEntry) (xs : List α) :
    failure? (xs.map fun x => { content := .ok (f x) }) = none := by
  induction xs with
  | nil => rfl
  | cons x xs ih => rw [List.map_cons, failure?_cons_ok _ rfl, ih]

namespace VaultSettings

/-- Different names have different paths. -/
lemma secretPath_injective (s : VaultSettings) : Function.Injective s.secretPath := by
  intro a b h
  unfold secretPath at h
  split at h
  · exact h
  · exact String.append_right_inj _ |>.mp h

end VaultSettings

namespace Client

variable (c : Client) (n : Network)

/-! ### What the vault says -/

/-- What the vault says when the folder of the secrets is listed. -/
def folderAnswer : Exchange.Result (List String) :=
  c.told n Exchange.Content.names .list (folderResource c.settings)

/-- What the vault says when the metadata of a secret are read. -/
def metadataAnswer (path : String) : Exchange.Result Exchange.Metadata :=
  c.told n Exchange.Content.metadata .get (metadataResource c.settings path)

/-- The context of reading metadata, as faults tell it. -/
def metadataContext (path : String) : String := "Failed to read metadata at path: " ++ path

/-- The entry that a path calls for: its item if its metadata are read, nothing if it is not found,
and its fault otherwise. -/
def entryAt (path : String) : Option ListingEntry :=
  match c.metadataAnswer n path with
  | .ok m =>
    some (.readable { name := path, tags := m.tags, version := some (Text.decimal m.version) })
  | .error f =>
    if f = .refused 404 then none else some (.unreadable path (f.fault (metadataContext path)))

section EntryAt

variable {c n} {path : String}

end EntryAt

variable {n}

/-- The entry for a secret is the one that its path calls for. -/
lemma entry?_metadata (hn : n.SpeaksHttp) (path : String) :
    entry? path ((c.metadata path).answer n) = c.entryAt n path := by
  rw [metadata, answer_exchange, entryAt, metadataAnswer]
  cases htold : c.told n Exchange.Content.metadata .get (metadataResource c.settings path) with
  | ok m => rfl
  | error f =>
    have hnotFound := Exchange.Failure.isNotFound_fault_iff
      (c.told_isPlain hn Exchange.Content.isPlain_metadata htold) (metadataContext path)
    show (if (f.fault (metadataContext path)).isNotFound then none else _) = _
    dsimp only
    by_cases hf : f = .refused 404
    · rw [if_pos hf, if_pos (hnotFound.mpr hf)]
    · rw [if_neg hf, if_neg (hnotFound.not.mpr hf)]
      rfl

/-- Taking note of metadata that were not read does not change the entry. -/
lemma answer_secretEntry (path : String) :
    (c.secretEntry path).answer n = entry? path ((c.metadata path).answer n) := by
  simp only [secretEntry, Dialogue.bind_eq, Dialogue.answer_bind, Dialogue.pure_eq]
  cases (c.metadata path).answer n with
  | ok m => rfl
  | error fault => rw [Dialogue.answer_bind, Dialogue.answer]

/-- The entries of a page are those that its paths call for. -/
lemma answer_secretEntries (hn : n.SpeaksHttp) (paths : List String) :
    (c.secretEntries paths).answer n = paths.filterMap (c.entryAt n) := by
  induction paths with
  | nil => rfl
  | cons path rest ih =>
    rw [secretEntries]
    simp only [Dialogue.bind_eq, Dialogue.answer_bind, Dialogue.pure_eq, Dialogue.answer,
      answer_secretEntry, entry?_metadata c hn, ih, List.filterMap_cons]
    cases c.entryAt n path <;> rfl

/-- **The pages that are read** hold the entries that their paths call for, and none of them
fails. -/
theorem answer_readPages (hn : n.SpeaksHttp) (pages : List (List String)) :
    (c.readPages pages).answer n =
      pages.map fun paths => { content := .ok (paths.filterMap (c.entryAt n)) } := by
  induction pages with
  | nil => rfl
  | cons paths rest ih =>
    rw [readPages]
    simp only [Dialogue.bind_eq, Dialogue.answer_bind, Dialogue.pure_eq, Dialogue.answer,
      answer_secretEntries c hn, ih, List.map_cons]

/-! ### The listing -/

variable (n) in
/-- The pages for names: the blocks of their paths, with each path replaced by its entry. -/
def entryPages (names : List String) : List Page :=
  (Paging.pages c.settings.pageLength (secretPaths c.settings names)).map fun paths =>
    { content := .ok (paths.filterMap (c.entryAt n)) }

/-- The listing of the secrets, page by page. -/
lemma answer_secretPages (hn : n.SpeaksHttp) :
    c.secretPages.answer n =
      ((c.listed n (folderResource c.settings)).mapError
        (Exchange.Failure.fault "Failed to list secrets")).map (c.entryPages n) := by
  rw [← orNoNames_exchange c hn, secretPages]
  simp only [Dialogue.bind_eq, Dialogue.answer_bind, Dialogue.pure_eq, folderNames]
  cases orNoNames ((c.exchange "Failed to list secrets" Exchange.Content.names .list
    (folderResource c.settings) none).answer n) with
  | error fault => rfl
  | ok names =>
    simp only [Dialogue.answer_bind, answer_readPages c hn, Dialogue.answer]
    rfl

/-- The listing opens iff names are listed or not found. -/
lemma answer_secretPages_eq_ok_iff (hn : n.SpeaksHttp) {pages : List Page} :
    c.secretPages.answer n = .ok pages ↔
      ∃ names, c.listed n (folderResource c.settings) = .ok names ∧
        c.entryPages n names = pages := by
  rw [answer_secretPages c hn]
  cases c.listed n (folderResource c.settings) <;> simp [Except.map, Except.mapError]

/-- The pages for names hold the entries that their paths call for, in order. -/
lemma flatten_entryPages (names : List String) :
    (Page.intact (c.entryPages n names)).flatten =
      (secretPaths c.settings names).filterMap (c.entryAt n) := by
  rw [entryPages, Page.intact_map_ok, ← List.filterMap_flatten, Paging.flatten_pages]

/-- None of the pages for names fails. -/
lemma failure?_entryPages (names : List String) : Page.failure? (c.entryPages n names) = none := by
  rw [entryPages, Page.failure?_map_ok]

/-- The entry that a path calls for bears that path. -/
lemma name_of_entryAt {path : String} {entry : ListingEntry} (h : c.entryAt n path = some entry) :
    entry.name = path := by
  unfold entryAt at h
  split at h
  · exact Option.some.inj h ▸ rfl
  · split at h
    · exact absurd h (Option.some_ne_none entry).symm
    · exact Option.some.inj h ▸ rfl

/-- Different paths call for entries of different names. -/
lemma nodup_name_filterMap {paths : List String} (h : paths.Nodup) :
    ((paths.filterMap (c.entryAt n)).map ListingEntry.name).Nodup := by
  have hname {path name : String} (hmem : name ∈ (c.entryAt n path).map ListingEntry.name) :
      name = path := by
    obtain ⟨entry, hentry, rfl⟩ := Option.map_eq_some_iff.mp hmem
    exact c.name_of_entryAt hentry
  rw [List.map_filterMap]
  exact h.filterMap fun path path' name hmem hmem' => (hname hmem).symm.trans (hname hmem')

/-- The client with pages of another length. -/
def withPageSize (size : Nat) : Client :=
  { c with settings := { c.settings with pageSize := size } }

variable (n) in
/-- **The listing of the secrets against its reference.** -/
structure ListsSecrets (listing : Listing) : Prop where
  /-- If the folder is listed, the listing opens. The paths are those of the names that are no
  folders, and each page holds the entries that its block of paths calls for. -/
  opened : ∀ names paths, c.folderAnswer n = .ok names →
    paths = (names.filter fun name => !isFolder name).map c.settings.secretPath →
    listing = .ok ((List.range ((paths.length + max 1 c.settings.pageSize - 1) /
        max 1 c.settings.pageSize)).map fun j =>
      { content := .ok (((paths.drop (j * max 1 c.settings.pageSize)).take
          (max 1 c.settings.pageSize)).filterMap (c.entryAt n)) })
  /-- No page fails, and together they hold the entries that the paths call for, in order. -/
  entries : ∀ names pages, c.folderAnswer n = .ok names → listing = .ok pages →
    Page.failure? pages = none ∧
      (Page.intact pages).flatten =
        ((names.filter fun name => !isFolder name).map c.settings.secretPath).filterMap
          (c.entryAt n)
  /-- The length of the pages has no say in that. -/
  resized : ∀ size pages, listing = .ok pages →
    ∃ pages', (c.withPageSize size).secretPages.answer n = .ok pages' ∧
      (Page.intact pages').flatten = (Page.intact pages).flatten
  /-- Different names have entries of different names. -/
  distinct : ∀ a b entry entry', a ≠ b → c.entryAt n (c.settings.secretPath a) = some entry →
    c.entryAt n (c.settings.secretPath b) = some entry' → entry.name ≠ entry'.name
  /-- So no name occurs twice among the entries if none does in the folder. -/
  nodup : ∀ names pages, c.folderAnswer n = .ok names → listing = .ok pages → names.Nodup →
    ((Page.intact pages).flatten.map ListingEntry.name).Nodup
  /-- A folder that is not found has no pages. -/
  missing : c.folderAnswer n = .error (.refused 404) → listing = .ok []
  /-- If it cannot be listed for another reason, neither can the secrets. -/
  failed : ∀ f, c.folderAnswer n = .error f → f ≠ .refused 404 →
    listing = .error (f.fault "Failed to list secrets")

/-- **The secrets are listed as the reference says**, over a network whose replies have statuses of
three digits.

**Proof sketch.** The pages are the blocks of the paths with each path replaced by its entry, if
any, and pages hold a list in order. -/
theorem listsSecrets_secretPages (hn : n.SpeaksHttp) :
    c.ListsSecrets n (c.secretPages.answer n) where
  opened names paths hnames hpaths := by
    have hlength : max 1 c.settings.pageLength = max 1 c.settings.pageSize := by
      rw [VaultSettings.pageLength]
      omega
    rw [(answer_secretPages_eq_ok_iff c hn).mpr ⟨names, listed_of_ok hnames, rfl⟩, entryPages,
      Paging.pages_eq, List.map_map, hpaths, hlength]
    rfl
  entries names pages hnames hlisting := by
    obtain ⟨names', hlisted, rfl⟩ := (answer_secretPages_eq_ok_iff c hn).mp hlisting
    obtain rfl := Except.ok.inj ((listed_of_ok hnames).symm.trans hlisted)
    exact ⟨failure?_entryPages c names, flatten_entryPages c names⟩
  resized size pages hlisting := by
    obtain ⟨names, hlisted, rfl⟩ := (answer_secretPages_eq_ok_iff c hn).mp hlisting
    refine ⟨(c.withPageSize size).entryPages n names,
      (answer_secretPages_eq_ok_iff (c.withPageSize size) hn).mpr ⟨names, hlisted, rfl⟩, ?_⟩
    rw [flatten_entryPages, flatten_entryPages]
    rfl
  distinct a b entry entry' hab hentry hentry' hname := by
    rw [c.name_of_entryAt hentry, c.name_of_entryAt hentry'] at hname
    exact hab (c.settings.secretPath_injective hname)
  nodup names pages hnames hlisting hnodup := by
    obtain ⟨names', hlisted, rfl⟩ := (answer_secretPages_eq_ok_iff c hn).mp hlisting
    obtain rfl := Except.ok.inj ((listed_of_ok hnames).symm.trans hlisted)
    rw [flatten_entryPages, secretPaths]
    exact c.nodup_name_filterMap ((hnodup.filter _).map c.settings.secretPath_injective)
  missing hmissing := by
    rw [(answer_secretPages_eq_ok_iff c hn).mpr ⟨[], listed_of_missing hmissing, rfl⟩, entryPages,
      secretPaths, List.filter_nil, List.map_nil, Paging.pages]
    rfl
  failed f hfailed hf := by
    rw [answer_secretPages c hn, listed_of_failed hfailed hf]
    rfl

/-- A client of a vault. -/
def sample : Client where
  settings := { pageSize := 2 }
  endpoint := { scheme := "http", host := "vault" }
  token := "token"

/-- A vault with a folder and four secrets: one with tags, one without, one that is gone and one that
is forbidden. -/
def sampleNetwork : Network := .scripted
  [("http://vault/v1/secret/metadata/", .names ["alpha", "folder/", "bravo", "carol", "delta"]),
    ("http://vault/v1/secret/metadata/alpha",
      .envelope (.tableOf [("current_version", .unsigned 3),
        ("custom_metadata", .tableOf [("env", .text "prod"), ("team", .text "ops")])])),
    ("http://vault/v1/secret/metadata/carol", .refusal 403),
    ("http://vault/v1/secret/metadata/delta",
      .envelope (.tableOf [("current_version", .unsigned 12), ("custom_metadata", .null)]))]

/-- The entries that the secrets of that vault are listed with. -/
def sampleEntries : List ListingEntry :=
  [.readable ⟨"alpha", some (.ofPairs [("env", "prod"), ("team", "ops")]), some "3"⟩,
    .unreadable "carol" ((Exchange.Failure.refused 403).fault (metadataContext "carol")),
    .readable ⟨"delta", none, some "12"⟩]

/-- The listing has two pages for the four secrets. Those that can be read have their versions and
their tags, the one that is gone has no entry, and the one that is forbidden has its failure. -/
theorem listsSecrets_sample :
    sample.ListsSecrets sampleNetwork (sample.secretPages.answer sampleNetwork) ∧
      ∃ pages, sample.secretPages.answer sampleNetwork = .ok pages ∧ pages.length = 2 ∧
        (Page.intact pages).flatten = sampleEntries := by
  have h := sample.listsSecrets_secretPages (n := sampleNetwork)
    (Network.speaksHttp_scripted (by decide))
  have hnames : sample.folderAnswer sampleNetwork =
      .ok ["alpha", "folder/", "bravo", "carol", "delta"] := by decide +kernel
  have hopened := h.opened _ ["alpha", "bravo", "carol", "delta"] hnames (by decide +kernel)
  refine ⟨h, _, hopened, rfl, ?_⟩
  rw [(h.entries _ _ hnames hopened).2]
  decide +kernel

end Client

end KeyIntake
