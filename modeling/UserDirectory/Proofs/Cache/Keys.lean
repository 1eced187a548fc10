import UserDirectory.Connector.Basic
import UserDirectory.Proofs.Json.Reordered
import UserDirectory.Proofs.Record.WellFormed
import UserDirectory.Proofs.Text.Bytes

/-!
# What a key determines

A key is made in four steps: arguments, their canonical text, the digest of its bytes, the
digest in hexadecimal digits. All steps but the digest lose nothing, and the digest is
trusted only as far as it is used: `CollisionFree` says of a list of arguments that no two
of them with different bytes have one digest. So a key says which arguments it was made
of, up to the order of fields and up to numbers that are written alike
(`CollisionFree.alike`), and the key of a handle, in whose arguments nothing but texts
occurs, says its model and its permissions (`CollisionFree.handle_eq`).

The order of fields is forgotten and nothing else is: canonical texts are the same exactly
if the contents are (`canonicalText_eq_iff`).
-/

namespace UserDirectory

/-! ## Keys as texts -/

theorem memoKey_injective : Function.Injective memoKey := fun _ _ h =>
  hexText_injective ((String.append_right_inj _).1 h)

/-- What has a key is not told to go past the cache. -/
theorem memoKey_ne_noCache (digest : List UInt8) : memoKey digest ≠ noCache := by
  intro h
  have hlist := congrArg String.toList h
  rw [memoKey, String.toList_append] at hlist
  exact absurd (List.cons.inj hlist).1 (by decide)

/-! ## Canonical texts -/

namespace Json

mutual

/-- **A well-formed value is its own ordered form.** -/
theorem ordered_eq_self (v : Json) (h : v.WellFormed) : v.ordered = v := by
  match v, h with
  | .null, _ | .bool _, _ | .num _, _ | .str _, _ => rfl
  | .arr items, h => rw [ordered, orderedItems_eq_self items h]
  | .obj fields, h =>
    rw [ordered, orderedFields_eq_self fields h.2]
    exact congrArg obj (Table.overlay_nil h.1)

/-- Well-formed items are their own ordered form. -/
theorem orderedItems_eq_self (items : List Json) (h : WellFormedItems items) :
    orderedItems items = items := by
  match items, h with
  | [], _ => rfl
  | v :: rest, h => rw [orderedItems, ordered_eq_self v h.1, orderedItems_eq_self rest h.2]

/-- Well-formed fields are their own ordered form. -/
theorem orderedFields_eq_self (fields : List (String × Json)) (h : WellFormedFields fields) :
    orderedFields fields = fields := by
  match fields, h with
  | [], _ => rfl
  | (k, v) :: rest, h =>
    rw [orderedFields, ordered_eq_self v h.1, orderedFields_eq_self rest h.2]

end

/-- Lists of strings that are alike are equal. -/
theorem eq_of_alike_ofStrings {ss ts : List String} (h : AlikeItems (ss.map str) (ts.map str)) :
    ss = ts := by
  match ss, ts, h with
  | [], [], _ => rfl
  | s :: ss, t :: ts, h => rw [show s = t from h.1, eq_of_alike_ofStrings h.2]

end Json

/-! ## Digests -/

/-- The bytes that a key is the digest of. -/
def hashedBytes (args : Json) : List UInt8 := utf8Bytes args.canonicalText

/-- **No two of these arguments collide**: those with one digest have the same bytes. -/
def CollisionFree (arguments : List Json) : Prop :=
  ∀ v ∈ arguments, ∀ w ∈ arguments,
    Sha256.digest (hashedBytes v) = Sha256.digest (hashedBytes w) → hashedBytes v = hashedBytes w

instance (arguments : List Json) : Decidable (CollisionFree arguments) :=
  inferInstanceAs (Decidable (∀ v ∈ arguments, ∀ w ∈ arguments, _ → _))

/-- **Arguments with one key are alike**, the order of their fields apart. -/
theorem CollisionFree.alike {arguments : List Json} (h : CollisionFree arguments) {v w : Json}
    (hv : v ∈ arguments) (hw : w ∈ arguments) (hkey : hashArgs v = hashArgs w) :
    v.ordered.Alike w.ordered :=
  Json.alike_of_text_eq (utf8Bytes_injective (h v hv w hw (memoKey_injective hkey)))

/-! ## When arguments have one key -/

/-- **One canonical text stands for one content**: two values are written alike exactly if
they are the same up to the order of fields at every depth. So two calls have one key
exactly if their arguments have the same content, or else their texts are a collision of
the digest. -/
theorem canonicalText_eq_iff {v w : Json} (hv : v.DistinctKeys) (hw : w.DistinctKeys) :
    (v.canonicalText = w.canonicalText ↔ v.SameContent w) ∧
      (hashArgs v = hashArgs w ↔ v.SameContent w ∨
        hashedBytes v ≠ hashedBytes w ∧
          Sha256.digest (hashedBytes v) = Sha256.digest (hashedBytes w)) := by
  have htext : v.canonicalText = w.canonicalText ↔ v.SameContent w :=
    Json.text_eq_iff_alike.trans (Json.alike_ordered_iff v w hv hw)
  refine ⟨htext, fun hkey => ?_, ?_⟩
  · have hdigest : Sha256.digest (hashedBytes v) = Sha256.digest (hashedBytes w) :=
      memoKey_injective hkey
    by_cases hbytes : hashedBytes v = hashedBytes w
    · exact .inl (htext.1 (utf8Bytes_injective hbytes))
    · exact .inr ⟨hbytes, hdigest⟩
  · rintro (hsame | ⟨-, hdigest⟩)
    · rw [hashArgs, hashArgs, htext.2 hsame]
    · exact congrArg memoKey hdigest

/-- Arguments whose texts hold delimiters. -/
def nestedArguments : Json :=
  .obj [("roles", .arr [.str "a\",\"b", .obj [("until", .null), ("level", .num (.int (-2)))]]),
    ("model", .str "user")]

/-- The same arguments, fields in another order. -/
def reorderedArguments : Json :=
  .obj [("model", .str "user"),
    ("roles", .arr [.str "a\",\"b", .obj [("level", .num (.int (-2))), ("until", .null)]])]

/-- Arguments with the two items exchanged. -/
def exchangedArguments : Json :=
  .obj [("model", .str "user"),
    ("roles", .arr [.obj [("level", .num (.int (-2))), ("until", .null)], .str "a\",\"b"])]

/-- Fields may change places and items may not. -/
theorem canonicalText_eq_iff_nested :
    nestedArguments.DistinctKeys ∧ reorderedArguments.DistinctKeys ∧
      exchangedArguments.DistinctKeys ∧ nestedArguments.SameContent reorderedArguments ∧
      hashArgs nestedArguments = hashArgs reorderedArguments ∧
      ¬ nestedArguments.SameContent exchangedArguments := by
  have hnested : nestedArguments.DistinctKeys :=
    ⟨by decide, ⟨trivial, ⟨by decide, trivial, trivial, trivial⟩, trivial⟩, trivial, trivial⟩
  have hreordered : reorderedArguments.DistinctKeys :=
    ⟨by decide, trivial, ⟨trivial, ⟨by decide, trivial, trivial, trivial⟩, trivial⟩, trivial⟩
  have hexchanged : exchangedArguments.DistinctKeys :=
    ⟨by decide, trivial, ⟨⟨by decide, trivial, trivial, trivial⟩, trivial, trivial⟩, trivial⟩
  have hsame : nestedArguments.SameContent reorderedArguments :=
    (canonicalText_eq_iff hnested hreordered).1.1 (by decide +kernel)
  have hother : nestedArguments.canonicalText ≠ exchangedArguments.canonicalText := by
    decide +kernel
  exact ⟨hnested, hreordered, hexchanged, hsame,
    (canonicalText_eq_iff hnested hreordered).2.2 (.inl hsame),
    fun h => hother ((canonicalText_eq_iff hnested hexchanged).1.2 h)⟩

/-! ## Keys of handles -/

/-- The arguments that the key of a handle is made of. -/
def handleArguments (model : String) (scopes : TokenScopes) : Json :=
  .arr [.str model, scopes.toJson]

theorem handleKey_ne_noCache (model : String) (scopes : TokenScopes) :
    handleKey model scopes ≠ noCache :=
  memoKey_ne_noCache _

/-- Permissions are written in order. -/
theorem TokenScopes.wellFormed_toJson (s : TokenScopes) : s.toJson.WellFormed := by
  refine ⟨List.pairwise_map.2 s.ordered, Json.wellFormedFields_iff.2 fun e he => ?_⟩
  obtain ⟨⟨resource, actions⟩, -, rfl⟩ := List.mem_map.1 he
  refine Json.wellFormedItems_iff.2 fun v hv => ?_
  obtain ⟨action, -, rfl⟩ := List.mem_map.1 hv
  trivial

/-- **Permissions are known by what is written of them.** -/
theorem TokenScopes.eq_of_alike_toJson {s t : TokenScopes} (h : s.toJson.Alike t.toJson) :
    s = t := by
  have hresources : ∀ {a b : Table (List String)}, Json.AlikeFields
      (Table.mapValues Json.ofStrings a) (Table.mapValues Json.ofStrings b) → a = b := by
    intro a b hab
    induction a generalizing b with
    | nil =>
      cases b with
      | nil => rfl
      | cons e b => exact absurd hab id
    | cons e a ih =>
      cases b with
      | nil => exact absurd hab id
      | cons f b =>
        obtain ⟨hkey, hactions, hrest⟩ := hab
        rw [ih hrest, Prod.ext hkey (Json.eq_of_alike_ofStrings hactions)]
  obtain ⟨a, ha⟩ := s
  obtain ⟨b, hb⟩ := t
  obtain rfl : a = b := hresources h
  rfl

/-- **A key is the key of one model and its permissions.** -/
theorem CollisionFree.handle_eq {arguments : List Json} (h : CollisionFree arguments)
    {model model' : String} {scopes scopes' : TokenScopes}
    (hmem : handleArguments model scopes ∈ arguments)
    (hmem' : handleArguments model' scopes' ∈ arguments)
    (hkey : handleKey model scopes = handleKey model' scopes') :
    model = model' ∧ scopes = scopes' := by
  have halike := h.alike hmem hmem' hkey
  have hself : ∀ (m : String) (s : TokenScopes),
      (handleArguments m s).ordered = handleArguments m s := fun m s =>
    Json.ordered_eq_self _ ⟨trivial, s.wellFormed_toJson, trivial⟩
  rw [hself, hself] at halike
  obtain ⟨hmodel, hscopes, -⟩ := halike
  exact ⟨hmodel, TokenScopes.eq_of_alike_toJson hscopes⟩

end UserDirectory
