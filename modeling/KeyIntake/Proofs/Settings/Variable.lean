import KeyIntake.Proofs.Text.Basic
import KeyIntake.Proofs.Tree.Layer
import KeyIntake.Settings.Variable
/-!
# Settings in variables

Which path a variable's name stands for, and what an environment holds. The name of a variable for a
path of plain keys is made of the mark and the keys, with two underscores between them. An
environment holds a sorted table, and a variable that is set for the first time is layered over what
the environment held before.

## Main definitions

* `Variable.front?` — what stands at the front of a value.
* `Variable.IsPlainKey` — keys that a variable's name can be made of.
* `Variable.isMarked` — the name of a variable bears the mark.

## Main results

* `Variable.path?_of_keys` — the path that a name made of plain keys stands for.
* `Environment.sorted_settings` — what an environment holds is a sorted table.
* `Environment.settings_set` — what it holds after a variable was set.
* `Environment.settings_congr` — variables without the mark have no say in that.
-/

set_option relaxedAutoImplicit false
set_option autoImplicit false

namespace KeyIntake

namespace Variable

/-! ### Names -/

/-- A key that the name of a variable can be made of: no points, blanks or pairs of underscores, and
no underscore at its end, where it would be taken for a part of what divides keys. -/
structure IsPlainKey (key : List Char) : Prop where
  ne_nil : key ≠ []
  plain : ∀ c ∈ key, c ≠ '.' ∧ Text.isBlank c = false
  single : ¬ ['_', '_'] <:+: key
  getLast : key.getLast? ≠ some '_'

/-- The name of a variable bears the mark. -/
def isMarked (name : String) : Bool := (dropMark? mark.toList (Text.trim name.toList)).isSome

/-- A name without the mark stands for nothing. -/
lemma path?_of_unmarked {name : String} (h : isMarked name = false) : path? name = none := by
  rw [isMarked, Option.isSome_eq_false_iff, Option.isNone_iff_eq_none] at h
  rw [path?, h]
  rfl

/-- A path is not empty. -/
lemma path?_ne_nil (name : String) : path? name ≠ some [] := by
  intro h
  obtain ⟨rest, -, h⟩ := Option.bind_eq_some_iff.mp h
  dsimp only at h
  split at h
  · simp at h
  · have hparts : ∀ cs, parts cs ≠ [] := by
      intro cs
      cases cs with
      | nil => simp [parts]
      | cons c cs =>
        rw [parts]
        split
        · simp
        · split <;> simp
    rw [Option.some.injEq, List.map_eq_nil_iff] at h
    exact hparts _ h

/-- The mark is found at the front of a name. -/
lemma dropMark?_append (ms rest : List Char) : dropMark? ms (ms ++ rest) = some rest := by
  induction ms with
  | nil => rw [List.nil_append, dropMark?]
  | cons m ms ih => rw [List.cons_append, dropMark?, if_pos rfl, ih]

/-- The underscores in a plain key stay. -/
lemma pointed_append {key : List Char} (hsingle : ¬ ['_', '_'] <:+: key)
    (hlast : key.getLast? ≠ some '_') (rest : List Char) :
    pointed (key ++ rest) = key ++ pointed rest := by
  induction key with
  | nil => rfl
  | cons c key ih =>
    have htail : pointed (key ++ rest) = key ++ pointed rest := by
      refine ih (fun hin => hsingle (hin.trans (List.suffix_cons c key).isInfix)) ?_
      cases key with
      | nil => simp
      | cons d key => rwa [List.getLast?_cons_cons] at hlast
    have hstays : ∀ rest', c = '_' → key ++ rest = '_' :: rest' → False := by
      rintro rest' rfl hnext
      cases key with
      | nil => simp at hlast
      | cons d key =>
        rw [List.cons_append, List.cons.injEq] at hnext
        rw [hnext.1] at hsingle
        exact hsingle (List.prefix_append ['_', '_'] key).isInfix
    rw [List.cons_append, pointed, htail]
    · rfl
    · exact hstays

/-- Between keys, two underscores become a point. -/
lemma pointed_intercalate {keys : List (List Char)} (h : ∀ key ∈ keys, IsPlainKey key) :
    pointed (['_', '_'].intercalate keys) = ['.'].intercalate keys := by
  induction keys with
  | nil => rfl
  | cons key keys ih =>
    have hkey := h key List.mem_cons_self
    cases keys with
    | nil =>
      have hend := pointed_append hkey.single hkey.getLast []
      simpa [pointed] using hend
    | cons key' keys =>
      have hrest := ih fun k hk => h k (List.mem_cons_of_mem _ hk)
      rw [List.intercalate_cons_cons, List.intercalate_cons_cons, List.append_assoc,
        pointed_append hkey.single hkey.getLast, ← hrest, List.append_assoc]
      rfl

/-- A key without points is one part. -/
lemma parts_append {key : List Char} (h : '.' ∉ key) (rest : List Char) :
    parts (key ++ '.' :: rest) = key :: parts rest := by
  induction key with
  | nil => rw [List.nil_append, parts, if_pos rfl]
  | cons c key ih =>
    rw [List.mem_cons, not_or] at h
    rw [List.cons_append, parts, if_neg fun heq => h.1 heq.symm, ih h.2]

/-- Points divide a text into keys without points. -/
lemma parts_intercalate {keys : List (List Char)} (hne : keys ≠ []) (h : ∀ key ∈ keys, '.' ∉ key) :
    parts (['.'].intercalate keys) = keys := by
  induction keys with
  | nil => exact absurd rfl hne
  | cons key keys ih =>
    cases keys with
    | nil =>
      have hkey := h key List.mem_cons_self
      rw [List.intercalate_singleton]
      clear ih hne h
      induction key with
      | nil => rfl
      | cons c key ih =>
        rw [List.mem_cons, not_or] at hkey
        rw [parts, if_neg fun heq => hkey.1 heq.symm, ih hkey.2]
    | cons key' keys =>
      rw [List.intercalate_cons_cons, List.append_assoc, List.singleton_append,
        parts_append (h key List.mem_cons_self),
        ih (by simp) fun k hk => h k (List.mem_cons_of_mem _ hk)]

/-- Keys with something between them begin as the first key does, which is not with a blank. -/
lemma isBlank_head_intercalate {sep : List Char} {keys : List (List Char)}
    (h : ∀ key ∈ keys, IsPlainKey key) :
    ∀ c ∈ (sep.intercalate keys).head?, Text.isBlank c = false := by
  cases keys with
  | nil => simp
  | cons key keys =>
    have hkey := h key List.mem_cons_self
    obtain ⟨d, cs, rfl⟩ := List.exists_cons_of_ne_nil hkey.ne_nil
    have hd := (hkey.plain d List.mem_cons_self).2
    intro c hc
    have hcd : d = c := by
      cases keys with
      | nil => simpa using hc
      | cons key' keys => simpa [List.intercalate_cons_cons] using hc
    exact hcd ▸ hd

/-- They end as the last key does. -/
lemma isBlank_getLast_intercalate {sep : List Char} {keys : List (List Char)}
    (h : ∀ key ∈ keys, IsPlainKey key) :
    ∀ c ∈ (sep.intercalate keys).getLast?, Text.isBlank c = false := by
  induction keys with
  | nil => simp
  | cons key keys ih =>
    cases keys with
    | nil =>
      rw [List.intercalate_singleton]
      intro c hc
      exact ((h key List.mem_cons_self).plain c (List.mem_of_getLast? hc)).2
    | cons key' keys =>
      have hrest := ih fun k hk => h k (List.mem_cons_of_mem _ hk)
      have hne : sep.intercalate (key' :: keys) ≠ [] := by
        have hkey' := (h key' (by simp)).ne_nil
        cases keys with
        | nil => simpa using hkey'
        | cons key'' keys => simp [List.intercalate_cons_cons, hkey']
      rw [List.intercalate_cons_cons, List.getLast?_append_of_ne_nil _ hne]
      exact hrest

/-- **The path that a name made of plain keys stands for**: the keys in lower case.

**Proof sketch.** Behind the mark, each two underscores become a point, and they stand between the
keys only; the points divide the text into the keys again. -/
theorem path?_of_keys {keys : List String} (hne : keys ≠ [])
    (h : ∀ key ∈ keys, IsPlainKey key.toList) :
    path? (mark ++ "__".intercalate keys) = some (keys.map String.toLower) := by
  have hplain : ∀ key ∈ keys.map String.toList, IsPlainKey key := by
    intro key hkey
    obtain ⟨k, hk, rfl⟩ := List.mem_map.mp hkey
    exact h k hk
  have hne' : keys.map String.toList ≠ [] := by simpa using hne
  have hname : (mark ++ "__".intercalate keys).toList =
      mark.toList ++ ['_', '_'].intercalate (keys.map String.toList) := by
    rw [String.toList_append, String.toList_intercalate]
    rfl
  have hlast : ∀ c ∈ (mark.toList ++ ['_', '_'].intercalate (keys.map String.toList)).getLast?,
      Text.isBlank c = false := by
    intro c hc
    rw [List.getLast?_append] at hc
    cases hkeys : (['_', '_'].intercalate (keys.map String.toList)).getLast? with
    | none =>
      rw [hkeys] at hc
      cases hc
      decide
    | some d =>
      rw [hkeys] at hc
      exact isBlank_getLast_intercalate hplain c (hkeys.trans hc)
  have htrim : Text.trim (mark ++ "__".intercalate keys).toList =
      mark.toList ++ ['_', '_'].intercalate (keys.map String.toList) := by
    rw [hname]
    refine Text.trimBy_eq_self (fun c hc => ?_) hlast
    cases hc
    decide
  have hparts : parts (Text.trim (pointed (['_', '_'].intercalate (keys.map String.toList)))) =
      keys.map String.toList := by
    rw [pointed_intercalate hplain, Text.trim, Text.trimBy_eq_self
      (isBlank_head_intercalate hplain) (isBlank_getLast_intercalate hplain)]
    exact parts_intercalate hne' fun key hkey hpoint => ((hplain key hkey).plain _ hpoint).1 rfl
  have hany : (keys.map String.toList).any List.isEmpty = false := by
    rw [List.any_eq_false]
    intro key hkey
    simpa using (hplain key hkey).ne_nil
  have hlower : (keys.map String.toList).map (fun key => String.ofList (key.map Char.toLower)) =
      keys.map String.toLower := by
    rw [List.map_map]
    refine List.map_congr_left fun key _ => String.toList_inj.mp ?_
    show (String.ofList (key.toList.map Char.toLower)).toList = (key.map Char.toLower).toList
    rw [String.toList_ofList, String.toList_map]
  rw [path?, htrim, dropMark?_append, Option.bind_eq_bind, Option.bind_some]
  dsimp only
  rw [hparts, hany, if_neg Bool.false_ne_true, hlower]

/-! ### Values -/

/-- What stands at the front of a text, given how to read the rest of a table and of a list. -/
def front? (table? list? : List Char → Option (Tree × List Char)) :
    List Char → Option (Tree × List Char)
  | 't' :: 'r' :: 'u' :: 'e' :: rest => some (.bool true, rest)
  | 'f' :: 'a' :: 'l' :: 's' :: 'e' :: rest => some (.bool false, rest)
  | '{' :: rest => table? rest
  | '[' :: rest => list? rest
  | '"' :: rest => (Toml.basicBody? [] (rest.length + 1) rest).map fun p => (.text p.1, p.2)
  | '\'' :: c :: '\'' :: rest => some (.text (String.singleton c), rest)
  | '\'' :: _ => none
  | rest => some (bare (Text.trim (rest.span fun c => !isSeparator c).1),
      (rest.span fun c => !isSeparator c).2)

/-- The rest of a table behind its opening brace, with a bound on how deep it nests. -/
def table? : Nat → List Char → Option (Tree × List Char)
  | 0, _ => none
  | depth + 1, rest => fields? (value? depth) [] (rest.length + 1) rest

/-- The rest of a list behind its opening bracket, with a bound on how deep it nests. -/
def list? : Nat → List Char → Option (Tree × List Char)
  | 0, _ => none
  | depth + 1, rest => items? (value? depth) [] (rest.length + 1) rest

/-- A value is what stands at the front, the space around it being dropped. -/
lemma value?_eq (depth : Nat) (cs : List Char) :
    value? depth cs = (front? (table? depth) (list? depth) (cs.dropWhile isSpace)).map fun p =>
      (p.1, p.2.dropWhile isSpace) := by
  unfold value? front?
  cases depth <;> rfl

section Nested

variable {value? : List Char → Option (Tree × List Char)}
  (hvalue : ∀ cs t rest, value? cs = some (t, rest) → t.Sorted)

include hvalue

/-- Lists of sorted items are sorted. -/
lemma sorted_items? {read : List Tree} {bound : Nat} {cs rest : List Char} {t : Tree}
    (hread : ∀ u ∈ read, u.Sorted) (h : items? value? read bound cs = some (t, rest)) :
    t.Sorted := by
  fun_induction items? value? read bound cs with
  | case1 => simp at h
  | case2 read bound left =>
    cases h
    exact .list fun u hu => hread u (List.mem_reverse.mp hu)
  | case3 read bound cs hcs ih =>
    obtain ⟨⟨u, left⟩, hu, h⟩ := Option.bind_eq_some_iff.mp h
    have hmore : ∀ v ∈ u :: read, v.Sorted := by
      intro v hv
      rcases List.mem_cons.mp hv with rfl | hmem
      · exact hvalue _ _ _ hu
      · exact hread v hmem
    dsimp only at h
    split at h
    · exact ih _ _ hmore h
    · cases h
      exact .list fun v hv => hmore v (List.mem_reverse.mp hv)
    · simp at h

/-- Tables of sorted values are sorted. -/
lemma sorted_fields? {read : List (String × Tree)} {bound : Nat} {cs rest : List Char} {t : Tree}
    (hread : (Tree.table read).Sorted) (h : fields? value? read bound cs = some (t, rest)) :
    t.Sorted := by
  fun_induction fields? value? read bound cs with
  | case1 => simp at h
  | case2 read bound left =>
    cases h
    exact hread
  | case3 read bound cs hcs ih =>
    obtain ⟨⟨key, left⟩, -, h⟩ := Option.bind_eq_some_iff.mp h
    dsimp only at h
    split at h
    · obtain ⟨⟨u, left'⟩, hu, h⟩ := Option.bind_eq_some_iff.mp h
      have hmore : (Tree.table (Entries.insert key u read)).Sorted :=
        hread.insert (hvalue _ _ _ hu)
      dsimp only at h
      split at h
      · exact ih _ _ _ hmore h
      · cases h
        exact hmore
      · simp at h
    · simp at h

end Nested

/-- Bare values are scalars. -/
lemma sorted_bare (cs : List Char) : (bare cs).Sorted := by
  unfold bare
  split
  · exact .float _
  · split
    · exact .unsigned _
    · split
      · exact .signed _
      · exact .text _

/-- What stands at the front is sorted if tables and lists are. -/
lemma sorted_front? {table? list? : List Char → Option (Tree × List Char)}
    (htable : ∀ cs t rest, table? cs = some (t, rest) → t.Sorted)
    (hlist : ∀ cs t rest, list? cs = some (t, rest) → t.Sorted) {cs rest : List Char} {t : Tree}
    (h : front? table? list? cs = some (t, rest)) : t.Sorted := by
  unfold front? at h
  split at h
  · cases h
    exact .bool _
  · cases h
    exact .bool _
  · exact htable _ _ _ h
  · exact hlist _ _ _ h
  · obtain ⟨p, -, h⟩ := Option.map_eq_some_iff.mp h
    cases h
    exact .text _
  · cases h
    exact .text _
  · simp at h
  · cases h
    exact sorted_bare _

/-- Values are sorted, however deep they nest. -/
lemma sorted_value? (depth : Nat) :
    ∀ cs t rest, value? depth cs = some (t, rest) → t.Sorted := by
  induction depth with
  | zero =>
    intro cs t rest h
    rw [value?_eq] at h
    obtain ⟨⟨u, left⟩, hu, h⟩ := Option.map_eq_some_iff.mp h
    cases h
    refine sorted_front? (fun _ _ _ hbad => ?_) (fun _ _ _ hbad => ?_) hu
    · simp [table?] at hbad
    · simp [list?] at hbad
  | succ depth ih =>
    intro cs t rest h
    rw [value?_eq] at h
    obtain ⟨⟨u, left⟩, hu, h⟩ := Option.map_eq_some_iff.mp h
    cases h
    exact sorted_front? (fun _ _ _ => sorted_fields? ih .empty)
      (fun _ _ _ => sorted_items? ih (by simp)) hu

/-- **The tree that a variable's value stands for is sorted.** -/
theorem sorted_value (s : String) : (value s).Sorted := by
  unfold value
  split
  case h_1 t ht => exact sorted_value? _ _ _ _ ht
  case h_2 => exact .text s

/-- So is that tree at the end of a path. -/
lemma sorted_nest {t : Tree} (h : t.Sorted) (path : List String) : (nest path t).Sorted := by
  induction path with
  | nil => exact h
  | cons key path ih => exact Tree.Sorted.empty.insert ih

end Variable

namespace Environment

/-! ### What an environment holds -/

variable {e e' : Environment} {name value : String}

/-- The layers of an environment: its variables with the mark, one by one. -/
def layers (e : Environment) : List Tree :=
  e.bindings.filterMap fun v =>
    (Variable.path? v.1).map fun path => Variable.nest path (Variable.value v.2)

/-- Each of them is a sorted table. -/
lemma sorted_layers : ∀ t ∈ e.layers, t.isTable = true ∧ t.Sorted := by
  intro t ht
  obtain ⟨v, -, hv⟩ := List.mem_filterMap.mp ht
  obtain ⟨path, hpath, rfl⟩ := Option.map_eq_some_iff.mp hv
  refine ⟨?_, Variable.sorted_nest (Variable.sorted_value v.2) path⟩
  cases path with
  | nil => exact absurd hpath (Variable.path?_ne_nil v.1)
  | cons key path => rfl

/-- **What an environment holds is a sorted table.** -/
theorem sorted_settings (e : Environment) : e.settings.isTable = true ∧ e.settings.Sorted :=
  ⟨Tree.isTable_layer fun t ht => (sorted_layers t ht).1,
    Tree.Sorted.layer fun t ht => (sorted_layers t ht).2⟩

/-- **What an environment holds after a variable was set** for the first time. -/
theorem settings_set (hnew : e.get? name = none) {path : List String}
    (hpath : Variable.path? name = some path) :
    (e.set name value).settings =
      Tree.merge e.settings (Variable.nest path (Variable.value value)) := by
  have hset : e.set name value = ⟨e.bindings ++ [(name, value)]⟩ := by
    rw [set, hnew]
    rfl
  rw [hset, settings, List.filterMap_append, List.filterMap_cons, List.filterMap_nil, hpath,
    Tree.layer, List.foldl_append]
  rfl

/-- Setting a variable for the first time leaves the others as they are. -/
lemma get?_set_of_ne (hnew : e.get? name = none) {other : String} (hne : other ≠ name) :
    (e.set name value).get? other = e.get? other := by
  have hset : e.set name value = ⟨e.bindings ++ [(name, value)]⟩ := by
    rw [set, hnew]
    rfl
  rw [hset, get?, get?]
  induction e.bindings with
  | nil =>
    have hother : (other == name) = false := beq_eq_false_iff_ne.mpr hne
    rw [List.nil_append, List.lookup_cons, List.lookup_nil, hother]
  | cons v rest ih =>
    obtain ⟨n, x⟩ := v
    rw [List.cons_append, List.lookup_cons, List.lookup_cons, ih]

/-- **Variables without the mark have no say** in what an environment holds. -/
theorem settings_congr
    (h : e.bindings.filter (fun v => Variable.isMarked v.1) =
      e'.bindings.filter fun v => Variable.isMarked v.1) : e.settings = e'.settings := by
  have hlayers : ∀ bindings : List (String × String),
      (bindings.filterMap fun v =>
        (Variable.path? v.1).map fun path => Variable.nest path (Variable.value v.2)) =
      (bindings.filter fun v => Variable.isMarked v.1).filterMap fun v =>
        (Variable.path? v.1).map fun path => Variable.nest path (Variable.value v.2) := by
    intro bindings
    induction bindings with
    | nil => rfl
    | cons v rest ih =>
      rw [List.filterMap_cons, List.filter_cons]
      cases hmark : Variable.isMarked v.1 with
      | false =>
        rw [Variable.path?_of_unmarked hmark, if_neg Bool.false_ne_true]
        exact ih
      | true => rw [if_pos rfl, List.filterMap_cons, ih]
  rw [settings, settings, hlayers e.bindings, hlayers e'.bindings, h]

end Environment

end KeyIntake
