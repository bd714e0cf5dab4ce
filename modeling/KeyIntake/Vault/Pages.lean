import KeyIntake.Vault.Client
/-!
# Listing the vault

The vault names its secrets and its signing keys in one reply each. The names are put on pages here,
and each secret's metadata are read before its page is complete. Folders inside the folder are left
out.

## Main definitions

* `Paging.pages` — a list in pages of a length.
* `Client.secretPages`, `Client.keyPages` — the listings of the two kinds.
* `Client.listing` — the listing of a kind.

## Main results

* `Paging.flatten_pages` — pages hold the list, in order.
-/

set_option autoImplicit false

namespace KeyIntake

namespace Paging

variable {α : Type}

/-- A list in pages of a length, which is taken as one if it is zero; the last page may be
shorter. -/
def pages (length : Nat) : List α → List (List α)
  | [] => []
  | x :: xs =>
    (x :: xs).take (max 1 length) :: pages length ((x :: xs).drop (max 1 length))
termination_by xs => xs.length
decreasing_by
  rw [List.length_drop, List.length_cons]
  omega

/-- Pages hold the list, in order. -/
theorem flatten_pages (length : Nat) (xs : List α) : (pages length xs).flatten = xs := by
  fun_induction pages length xs with
  | case1 => rfl
  | case2 x xs ih => rw [List.flatten_cons, ih, List.take_append_drop]

end Paging

namespace Client

/-! ### Secrets -/

/-- A name stands for a folder. -/
def isFolder (name : String) : Bool := name.toList.getLast? == some '/'

/-- The paths of the secrets among listed names. -/
def secretPaths (s : VaultSettings) (names : List String) : List String :=
  (names.filter fun name => !isFolder name).map s.secretPath

/-- The resource that holds the metadata of a secret. -/
def metadataResource (s : VaultSettings) (path : String) : String :=
  s.secretMount ++ "/metadata/" ++ path

/-- Read the metadata of a secret. -/
def metadata (c : Client) (path : String) : Dialogue (Except Fault Exchange.Metadata) :=
  c.exchange ("Failed to read metadata at path: " ++ path) Exchange.Content.metadata .get
    (metadataResource c.settings path) none

/-- The entry for a secret whose metadata were read or not. A secret that is not found any more has
none. -/
def entry? (path : String) : Except Fault Exchange.Metadata → Option ListingEntry
  | .ok m =>
    some (.readable { name := path, tags := m.tags, version := some (Text.decimal m.version) })
  | .error fault => if fault.isNotFound then none else some (.unreadable path fault)

/-- Take note of metadata that were not read. -/
def noteUnread (path : String) (fault : Fault) : Dialogue Unit :=
  if fault.isNotFound then
    log .debug "Secret disappeared before its metadata was read" [("path", .text path)]
  else
    log .warn "Secret metadata unreadable" [("path", .text path), ("error", .text fault.message)]

/-- The entry for a secret, if it is still there. -/
def secretEntry (c : Client) (path : String) : Dialogue (Option ListingEntry) := do
  let read ← c.metadata path
  match read with
  | .ok _ => pure ()
  | .error fault => noteUnread path fault
  return entry? path read

/-- The entries for the secrets of a page. -/
def secretEntries (c : Client) : List String → Dialogue (List ListingEntry)
  | [] => pure []
  | path :: paths => do
    let first ← c.secretEntry path
    let rest ← c.secretEntries paths
    return first.toList ++ rest

/-- The pages for pages of paths. None of them fails. -/
def readPages (c : Client) : List (List String) → Dialogue (List Page)
  | [] => pure []
  | paths :: pages => do
    let entries ← c.secretEntries paths
    let rest ← c.readPages pages
    return { content := .ok entries } :: rest

/-- The listing of the secrets in the folder. A folder that is not found is empty. -/
def secretPages (c : Client) : Dialogue Listing := do
  match orNoNames (← c.folderNames "Failed to list secrets") with
  | .error fault => return .error fault
  | .ok names =>
    let paths := secretPaths c.settings names
    log .debug "Listed KV secrets"
      [("mount", .text c.settings.secretMount), ("prefix", .text c.settings.folder),
        ("secrets", .number paths.length)]
    return .ok (← c.readPages (Paging.pages c.settings.pageLength paths))

/-! ### Signing keys -/

/-- The listing of the signing keys, which have neither tags nor versions. A mount that is not found
is empty. -/
def keyPages (c : Client) : Dialogue Listing := do
  match orNoNames (← c.keyNames "Failed to list transit keys") with
  | .error fault => return .error fault
  | .ok names =>
    log .debug "Listed transit keys"
      [("mount", .text c.settings.keyMount), ("keys", .number names.length)]
    return .ok ((Paging.pages c.settings.pageLength names).map fun page =>
      { content := .ok (page.map fun name => .readable { name }) })

/-- The listing of a kind. -/
def listing (c : Client) : ItemKind → Dialogue Listing
  | .secret => c.secretPages
  | .key => c.keyPages

end Client

end KeyIntake
