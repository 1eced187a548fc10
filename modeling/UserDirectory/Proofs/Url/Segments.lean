import Mathlib.Data.List.Basic
import Mathlib.Data.List.Induction
import UserDirectory.Proofs.Text.Bytes
import UserDirectory.Url.Basic

/-!
# Names and segments

To encode a text loses nothing, as long as the percent sign is itself encoded: what is
decoded are the bytes of the text (`percentDecode_percentEncode`). But a name is not only
encoded on its way into a path. Names of one or two dots are passed over, tabs and line
ends vanish, and what is left may be two dots, which take back a segment, or nothing at
all. A name is addressable if none of this touches it (`Addressable`).

Whoever goes down a path by several names arrives where they say, one segment for each,
exactly if all of them are addressable (`leadsTo_below_iff`). The difficult direction is
that the losses cannot make up for each other: a path gains one segment at most with each
name, and so no later name can fill the place of one that was passed over.
-/

namespace UserDirectory.Url

/-! ## Decoding -/

theorem hexValue?_hexUpper : ∀ n < 16, hexValue? (hexUpper n) = some n := by decide

theorem percentDecode_cons_of_ne {c : Char} (h : c ≠ '%') (rest : List Char) :
    percentDecode (c :: rest) = utf8Bytes (String.singleton c) ++ percentDecode rest := by
  rw [percentDecode]
  exact fun _ _ _ hc => absurd hc h

theorem percentDecode_byte (b : UInt8) (rest : List Char) :
    percentDecode ('%' :: hexUpper (b.toNat / 16) :: hexUpper (b.toNat % 16) :: rest) =
      b :: percentDecode rest := by
  have hb := b.toNat_lt
  rw [percentDecode]
  simp only [hexValue?_hexUpper _ (show b.toNat / 16 < 16 by omega),
    hexValue?_hexUpper _ (show b.toNat % 16 < 16 by omega), Nat.div_add_mod, UInt8.ofNat_toNat]

theorem percentDecode_percentChar (c : Char) (rest : List Char) :
    percentDecode (percentChar c ++ rest) =
      utf8Bytes (String.singleton c) ++ percentDecode rest := by
  unfold percentChar
  induction utf8Bytes (String.singleton c) with
  | nil => rfl
  | cons b bytes ih =>
    simp only [List.flatMap_cons, List.cons_append, List.nil_append]
    rw [percentDecode_byte, ih]

/-- **What is encoded is decoded to its bytes**, if percent signs are encoded. -/
theorem percentDecode_percentEncode {set : Char → Bool} (h : set '%' = true) (cs : List Char) :
    percentDecode (percentEncode set cs) = utf8Bytes (String.ofList cs) := by
  induction cs with
  | nil => exact utf8Bytes_empty.symm
  | cons c cs ih =>
    have hencode : percentEncode set (c :: cs) =
        (if set c then percentChar c else [c]) ++ percentEncode set cs := List.flatMap_cons
    rw [hencode, utf8Bytes_ofList_cons, ← ih]
    split
    · exact percentDecode_percentChar c _
    · next hc =>
      have hne : c ≠ '%' := fun heq => hc (by rw [heq]; exact h)
      exact percentDecode_cons_of_ne hne _

/-- What is encoded holds no slash, if slashes are encoded. -/
theorem slash_not_mem_percentEncode {set : Char → Bool} (h : set '/' = true) (cs : List Char) :
    '/' ∉ percentEncode set cs := by
  have hdigit : ∀ n < 16, '/' ≠ hexUpper n := by decide
  intro hmem
  obtain ⟨c, -, hc⟩ := List.mem_flatMap.1 hmem
  split at hc
  · obtain ⟨b, -, hb⟩ := List.mem_flatMap.1 hc
    have hlt := b.toNat_lt
    simp [hdigit _ (show b.toNat / 16 < 16 by omega),
      hdigit _ (show b.toNat % 16 < 16 by omega)] at hb
  · next hset => exact hset (List.mem_singleton.1 hc ▸ h)

/-! ## Segments -/

/-- A name without its tabs and line ends. -/
def stripped (name : String) : String := String.ofList (name.toList.filter fun c => !isVanishing c)

/-- **A name that a path can hold**: neither empty nor dots, and without tabs and line ends. -/
structure Addressable (name : String) : Prop where
  ne_empty : name ≠ ""
  ne_dot : name ≠ "."
  ne_dots : name ≠ ".."
  kept : stripped name = name

instance (name : String) : Decidable (Addressable name) :=
  decidable_of_iff (name ≠ "" ∧ name ≠ "." ∧ name ≠ ".." ∧ stripped name = name)
    ⟨fun ⟨h, h', h'', hkept⟩ => ⟨h, h', h'', hkept⟩, fun ⟨h, h', h'', hkept⟩ => ⟨h, h', h'', hkept⟩⟩

/-- The bytes that a segment stands for. -/
def segmentBytes (segment : String) : List UInt8 := percentDecode segment.toList

@[simp] theorem segmentBytes_encodeSegment (special : Bool) (name : String) :
    segmentBytes (encodeSegment special name) = utf8Bytes (stripped name) := by
  unfold segmentBytes encodeSegment
  rw [String.toList_ofList]
  cases special with
  | false => exact percentDecode_percentEncode (by decide) _
  | true => exact percentDecode_percentEncode (by decide) _

theorem slash_not_mem_encodeSegment (special : Bool) (name : String) :
    '/' ∉ (encodeSegment special name).toList := by
  unfold encodeSegment
  rw [String.toList_ofList]
  cases special with
  | false => exact slash_not_mem_percentEncode (by decide) _
  | true => exact slash_not_mem_percentEncode (by decide) _

/-- An addressable name becomes a segment that is neither empty nor dots. -/
theorem Addressable.encodeSegment_ne {name : String} (h : Addressable name) (special : Bool) :
    encodeSegment special name ≠ "" ∧ encodeSegment special name ≠ "." ∧
      encodeSegment special name ≠ ".." := by
  have hbytes : ∀ plain, segmentBytes plain = utf8Bytes plain → name ≠ plain →
      encodeSegment special name ≠ plain := by
    rintro plain hplain hne rfl
    rw [segmentBytes_encodeSegment, h.kept] at hplain
    exact hne (utf8Bytes_injective hplain)
  exact ⟨hbytes "" utf8Bytes_empty.symm h.ne_empty, hbytes "." (by decide +kernel) h.ne_dot,
    hbytes ".." (by decide +kernel) h.ne_dots⟩

/-! ## Going down -/

/-- The segments of a path. -/
def Path.list : Path → List String
  | .segments list => list
  | .plain _ => []

/-- The segments that a further one is added to: the root's empty segment is none. -/
def room (path : List String) : List String := if path == [""] then [] else path

/-- The segments of a path as bytes. -/
def pathBytes (path : List String) : List (List UInt8) := (room path).map segmentBytes

/-- The path below another one, by names. -/
def below (special : Bool) (path names : List String) : List String :=
  ((names.filter fun n => n != "." && n != "..").map (encodeSegment special)).foldl addSegment path

theorem addSegments?_eq {u : Url} {path : List String} (h : u.path = .segments path)
    (names : List String) :
    u.addSegments? names = some { u with
      path := .segments (below (isSpecialScheme u.scheme) (dropEmptyLast path) names) } := by
  unfold addSegments?
  rw [h]
  rfl

theorem exists_of_addSegments? {u v : Url} {names : List String}
    (h : u.addSegments? names = some v) :
    ∃ path, u.path = .segments path ∧ v = { u with
      path := .segments (below (isSpecialScheme u.scheme) (dropEmptyLast path) names) } := by
  unfold addSegments? at h
  split at h
  · exact absurd h nofun
  · next path hpath => exact ⟨path, hpath, (Option.some.inj h).symm⟩

theorem addSegment_eq (path : List String) (segment : String) :
    addSegment path segment =
      if segment = "." then room path ++ [""]
      else if segment = ".." then (room path).dropLast ++ [""]
      else room path ++ [segment] := by
  unfold addSegment room
  simp only [beq_iff_eq]

theorem room_append_singleton (path : List String) {segment : String} (h : segment ≠ "") :
    room (path ++ [segment]) = path ++ [segment] := by
  unfold room
  rw [if_neg]
  intro heq
  have hsplit : path ++ [segment] = [] ++ [""] := beq_iff_eq.1 heq
  exact h (List.singleton_inj.1 (List.append_inj_right' hsplit rfl))

@[simp] theorem below_nil (special : Bool) (path : List String) : below special path [] = path :=
  rfl

theorem below_cons_of_addressable (special : Bool) (path : List String) {name : String}
    (h : Addressable name) (names : List String) :
    below special path (name :: names) =
      below special (room path ++ [encodeSegment special name]) names := by
  obtain ⟨-, hdot, hdots⟩ := h.encodeSegment_ne special
  have hstep : addSegment path (encodeSegment special name) =
      room path ++ [encodeSegment special name] := by
    rw [addSegment_eq, if_neg hdot, if_neg hdots]
  unfold below
  rw [List.filter_cons_of_pos (by simp [h.ne_dot, h.ne_dots]), List.map_cons, List.foldl_cons,
    hstep]

/-- **Addressable names are gone down by**, one segment for each. -/
theorem below_of_addressable (special : Bool) (path : List String) {names : List String}
    (hne : names ≠ []) (h : ∀ name ∈ names, Addressable name) :
    below special path names = room path ++ names.map (encodeSegment special) := by
  induction names generalizing path with
  | nil => exact absurd rfl hne
  | cons name names ih =>
    obtain ⟨hname, hnames⟩ := List.forall_mem_cons.1 h
    rw [below_cons_of_addressable special path hname]
    cases names with
    | nil => rfl
    | cons next names =>
      rw [ih _ (List.cons_ne_nil _ _) hnames,
        room_append_singleton _ (hname.encodeSegment_ne special).1, List.append_assoc]
      rfl

theorem map_segmentBytes_of_addressable (special : Bool) {names : List String}
    (h : ∀ name ∈ names, Addressable name) :
    (names.map (encodeSegment special)).map segmentBytes = names.map utf8Bytes := by
  rw [List.map_map]
  refine List.map_congr_left fun name hname => ?_
  rw [Function.comp_apply, segmentBytes_encodeSegment, (h name hname).kept]

/-- Addressable names arrive. -/
theorem pathBytes_below_of_addressable (special : Bool) (path : List String) {names : List String}
    (h : ∀ name ∈ names, Addressable name) :
    pathBytes (below special path names) = pathBytes path ++ names.map utf8Bytes := by
  induction names generalizing path with
  | nil => simp
  | cons name names ih =>
    obtain ⟨hname, hnames⟩ := List.forall_mem_cons.1 h
    have hfirst : pathBytes (room path ++ [encodeSegment special name]) =
        pathBytes path ++ [utf8Bytes name] := by
      unfold pathBytes
      rw [room_append_singleton _ (hname.encodeSegment_ne special).1, List.map_append,
        List.map_singleton, segmentBytes_encodeSegment, hname.kept]
    rw [below_cons_of_addressable special path hname, ih _ hnames, hfirst, List.append_assoc]
    rfl

/-! ## Arriving -/

/-- A last segment that stands for something was added as such. -/
theorem pathBytes_append_singleton {path : List String} {segment : String}
    {before : List (List UInt8)} {last : List UInt8}
    (h : pathBytes (path ++ [segment]) = before ++ [last]) :
    path.map segmentBytes = before ∧ segmentBytes segment = last := by
  unfold pathBytes room at h
  split at h
  · exact absurd h.symm (List.append_ne_nil_of_right_ne_nil before (List.cons_ne_nil last []))
  · rw [List.map_append] at h
    obtain ⟨hbefore, hsegment⟩ := List.append_inj' h rfl
    exact ⟨hbefore, List.singleton_inj.1 hsegment⟩

theorem length_room_addSegment_le (path : List String) (segment : String) :
    (room (addSegment path segment)).length ≤ (room path).length + 1 := by
  have hroom : ∀ p : List String, (room p).length ≤ p.length := fun p => by
    unfold room
    split
    · exact Nat.zero_le _
    · exact Nat.le_refl _
  refine Nat.le_trans (hroom _) ?_
  rw [addSegment_eq]
  split
  · simp
  · split <;> simp

/-- **A path gains one segment at most with each name.** -/
theorem length_pathBytes_below_le (special : Bool) (path names : List String) :
    (pathBytes (below special path names)).length ≤ (pathBytes path).length + names.length := by
  unfold pathBytes
  rw [List.length_map, List.length_map]
  unfold below
  induction names generalizing path with
  | nil => exact Nat.le_refl _
  | cons name names ih =>
    rw [List.filter_cons]
    split
    · have hgain := length_room_addSegment_le path (encodeSegment special name)
      have hrest := ih (addSegment path (encodeSegment special name))
      rw [List.map_cons, List.foldl_cons, List.length_cons]
      omega
    · have hrest := ih path
      rw [List.length_cons]
      omega

theorem below_concat (special : Bool) (path names : List String) (name : String) :
    below special path (names ++ [name]) =
      if name = "." ∨ name = ".." then below special path names
      else addSegment (below special path names) (encodeSegment special name) := by
  unfold below
  rw [List.filter_append, List.map_append, List.foldl_append]
  by_cases h : name = "." ∨ name = ".."
  · rw [if_pos h, List.filter_cons_of_neg (by simpa [or_iff_not_imp_left] using h)]
    rfl
  · rw [if_neg h, List.filter_cons_of_pos (by simpa using h)]
    rfl

/-- **A last name that arrives** is addressable, and so did the names before it. -/
theorem addressable_of_concat {special : Bool} {path names : List String} {name : String}
    (hne : name ≠ "")
    (h : pathBytes (below special path (names ++ [name])) =
      pathBytes path ++ (names ++ [name]).map utf8Bytes) :
    Addressable name ∧
      pathBytes (below special path names) = pathBytes path ++ names.map utf8Bytes := by
  rw [below_concat] at h
  split at h
  · -- one name less, and no other can have made up for it
    have hle := length_pathBytes_below_le special path names
    have hlength := congrArg List.length h
    simp only [List.length_append, List.length_map, List.length_singleton] at hlength
    omega
  · next hdots =>
    obtain ⟨hdot, hdots⟩ := not_or.1 hdots
    rw [List.map_append, ← List.append_assoc, addSegment_eq] at h
    have hbytes : utf8Bytes name ≠ [] := mt utf8Bytes_eq_nil_iff.1 hne
    split at h
    · exact absurd (pathBytes_append_singleton h).2.symm hbytes
    · split at h
      · exact absurd (pathBytes_append_singleton h).2.symm hbytes
      · obtain ⟨hbefore, hlast⟩ := pathBytes_append_singleton h
        rw [segmentBytes_encodeSegment] at hlast
        exact ⟨⟨hne, hdot, hdots, utf8Bytes_injective hlast⟩, hbefore⟩

/-- **Names arrive where they say**, exactly if they are addressable. -/
theorem pathBytes_below_iff (special : Bool) (path : List String) {names : List String}
    (hne : ∀ name ∈ names, name ≠ "") :
    pathBytes (below special path names) = pathBytes path ++ names.map utf8Bytes ↔
      ∀ name ∈ names, Addressable name := by
  constructor
  · intro h
    induction names using List.reverseRecOn with
    | nil => exact nofun
    | append_singleton names name ih =>
      obtain ⟨hname, hrest⟩ := addressable_of_concat (hne name (by simp)) h
      have hnames := ih (fun n hn => hne n (List.mem_append_left _ hn)) hrest
      simpa [or_imp, forall_and] using ⟨hnames, hname⟩
  · exact pathBytes_below_of_addressable special path

/-- **The URL leads from the base to what the names say**: behind the segments of the base,
an empty last one apart, a segment for each name, none of them empty. -/
def LeadsTo (base u : Url) (names : List String) : Prop :=
  pathBytes u.path.list = pathBytes (dropEmptyLast base.path.list) ++ names.map utf8Bytes ∧
    ∀ name ∈ names, name ≠ ""

instance (base u : Url) (names : List String) : Decidable (base.LeadsTo u names) :=
  inferInstanceAs (Decidable (_ ∧ _))

/-- **A URL further down leads to what the names say**, exactly if they are addressable. -/
theorem leadsTo_iff {base u : Url} {names : List String} (h : base.addSegments? names = some u) :
    base.LeadsTo u names ↔ ∀ name ∈ names, Addressable name := by
  obtain ⟨path, hpath, rfl⟩ := exists_of_addSegments? h
  unfold LeadsTo
  rw [hpath]
  constructor
  · rintro ⟨hbytes, hne⟩
    exact (pathBytes_below_iff _ _ hne).1 hbytes
  · intro haddressable
    exact ⟨pathBytes_below_of_addressable _ _ haddressable,
      fun name hname => (haddressable name hname).ne_empty⟩

/-! ## Texts of paths -/

theorem toList_print (list : List String) :
    (Path.segments list).print.toList = (list.map String.toList).flatMap fun s => '/' :: s := by
  unfold Path.print
  simp [String.toList_join, List.flatMap_map]

/-- Pieces without slashes are known by their text, each behind a slash. -/
theorem eq_of_flatMap_slash_eq {as bs : List (List Char)} (ha : ∀ a ∈ as, '/' ∉ a)
    (hb : ∀ b ∈ bs, '/' ∉ b) (h : as.flatMap (fun a => '/' :: a) = bs.flatMap fun b => '/' :: b) :
    as = bs := by
  -- what stands before a continuation is all up to its slash
  have hread : ∀ {a : List Char} {as : List (List Char)}, '/' ∉ a →
      (a ++ as.flatMap fun a => '/' :: a).takeWhile (· != '/') = a := fun {a as} h => by
    rw [List.takeWhile_append_of_pos fun c hc => bne_iff_ne.2 fun heq : c = '/' => h (heq ▸ hc)]
    cases as with
    | nil => exact List.append_nil a
    | cons => exact List.append_nil a
  induction as generalizing bs with
  | nil =>
    cases bs with
    | nil => rfl
    | cons b bs => exact absurd h nofun
  | cons a as ih =>
    cases bs with
    | nil => exact absurd h nofun
    | cons b bs =>
      obtain ⟨hfirst, has⟩ := List.forall_mem_cons.1 ha
      obtain ⟨hfirst', hbs⟩ := List.forall_mem_cons.1 hb
      have h : a ++ as.flatMap (fun a => '/' :: a) = b ++ bs.flatMap fun b => '/' :: b :=
        (List.cons.inj h).2
      obtain rfl : a = b := by rw [← hread hfirst, h, hread hfirst']
      rw [ih has hbs (List.append_cancel_left h)]

/-- **Addressable names are known by the text of the URL** that they lead to. -/
theorem eq_of_target_eq {base u u' : Url} {names names' : List String}
    (h : base.addSegments? names = some u) (h' : base.addSegments? names' = some u')
    (hne : names ≠ []) (hne' : names' ≠ []) (haddressable : ∀ name ∈ names, Addressable name)
    (haddressable' : ∀ name ∈ names', Addressable name) (htarget : u.target = u'.target) :
    names = names' := by
  obtain ⟨path, hpath, rfl⟩ := exists_of_addSegments? h
  obtain ⟨path', hpath', rfl⟩ := exists_of_addSegments? h'
  obtain rfl := Path.segments.inj (hpath.symm.trans hpath')
  have hprint := congrArg String.toList ((String.append_left_inj _).1 htarget)
  simp only [below_of_addressable _ _ hne haddressable, below_of_addressable _ _ hne' haddressable',
    toList_print, List.map_append, List.flatMap_append, List.append_cancel_left_eq] at hprint
  have hslash : ∀ names : List String, ∀ s ∈ (names.map
      (encodeSegment (isSpecialScheme base.scheme))).map String.toList, '/' ∉ s := by
    simp [slash_not_mem_encodeSegment]
  have htexts := eq_of_flatMap_slash_eq (hslash names) (hslash names') hprint
  have hsegments := List.map_injective_iff.2 (fun _ _ => String.toList_inj.1) htexts
  have hbytes := congrArg (List.map segmentBytes) hsegments
  rw [map_segmentBytes_of_addressable _ haddressable,
    map_segmentBytes_of_addressable _ haddressable'] at hbytes
  exact List.map_injective_iff.2 utf8Bytes_injective hbytes

end UserDirectory.Url
