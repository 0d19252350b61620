import RecordQuery.Proofs.Value.Collections
import RecordQuery.Proofs.Value.Keys
import RecordQuery.Proofs.Value.Transitivity
import RecordQuery.Proofs.Lexing.Words
/-!
# Keys of collections

The key of an array or an object has the keys of what is in it between marks, and texts stand there as they
are. So a text with such a mark in it can end an item early, and `["a", "b"]` has the key of
`["a,string:b"]`. Without these marks a key is read in one way, whatever follows it
(`Value.Legible.tells_agrees`): a text ends at the first mark, a collection ends where as many items as
it has have been read, and its marks are those of the place where the items stand (`Place.stops`). The
induction is on the value whose key is read, with the other value and both rests arbitrary.
-/

namespace RecordQuery.Value

variable {v w : Value}

/-! ## Simple values -/

theorem agrees_self (h : v.isSimple = true) : v.agrees v = true := by
  cases v with
  | integer n => simp [agrees, compare?, compareNumbers?]
  | decimal d => simp [agrees, compare?, compareNumbers?_eq, toDecimal?, Decimal.compare_eq_iff]
  | null => rfl
  | boolean b => simp [agrees, compare?]
  | uuid u => simp [agrees, compare?, Uuid.compare]
  | date t => simp [agrees, compare?, Timestamp.compare]
  | string s => simp [agrees, compare?]
  | float | point | array | object => cases h

theorem agrees_of_exact {d e : Decimal} (hd : v.toDecimal? = some d) (he : w.toDecimal? = some e)
    (h : d.toRat = e.toRat) : v.agrees w = true := by
  have hcompare : compare? v w = some .eq := by
    rw [compare?_of_numbers (isNumber_of_exact hd) (isNumber_of_exact he), compareNumbers?_eq, hd, he]
    exact congrArg some (Decimal.compare_eq_iff.mpr h)
  cases v <;> cases hd <;> cases w <;> cases he <;> exact beq_iff_eq.mpr hcompare

/-- Values that are the same, or one number, agree. -/
theorem Coincides.agrees (hv : v.isSimple = true) (h : v.Coincides w) : v.agrees w = true := by
  rcases h with rfl | ⟨x, hx, hx'⟩
  · exact agrees_self hv
  · obtain ⟨d, hd, rfl⟩ := Option.map_eq_some_iff.mp hx
    obtain ⟨e, he, heq⟩ := Option.map_eq_some_iff.mp hx'
    exact agrees_of_exact hd he heq.symm

/-! ## Marks -/

/-- What a value stands in. -/
inductive Place where
  | alone
  | item
  | field

/-- The signs that may follow a key at a place: none where it stands alone. -/
def Place.stops : Place → List Char
  | .alone => []
  | .item => [',', ']']
  | .field => [',', '\x7d']

/-- `p.Ends rest` holds when a key at the place may be followed by `rest`. -/
def Place.Ends (p : Place) (rest : List Char) : Prop :=
  ∀ c ∈ rest.head?, c ∈ p.stops

/-- `p.Tells text P x y` holds when one text that begins with those of both, each followed by what may follow
it at the place, tells that `P` relates the two and that they end at one sign. -/
def Place.Tells {α : Type} (p : Place) (text : α → List Char) (P : α → α → Prop) (x y : α) : Prop :=
  ∀ r s, p.Ends r → p.Ends s → text x ++ r = text y ++ s → P x y ∧ r = s

/-- The signs of a key. -/
def itemKey (v : Value) : List Char :=
  v.groupKey.toList

variable {p : Place} {r s : List Char}

theorem itemKey_simple (h : v.isSimple = true) :
    v.itemKey = v.keyType.toList ++ ':' :: v.keyText.toList := by
  simp [itemKey, groupKey_eq h]

/-- No mark is a sign that is in the text of every value of some type. -/
theorem Place.mark_of_mem (p : Place) : ∀ c ∈ p.stops, c.isDigit = false ∧ Uuid.isHex c = false ∧
    c ∉ ['+', '-', ' ', ':', '.'] ∧ c ∉ "null".toList ∧ c ∉ "true".toList ∧ c ∉ "false".toList := by
  cases p with
  | alone => exact List.forall_mem_nil _
  | item | field => exact List.forall_mem_cons.mpr ⟨by decide, List.forall_mem_singleton.mpr (by decide)⟩

/-- A mark is in the text of a simple value only if the value is a text that has it. -/
theorem not_mem_keyText {c : Char} (hc : c ∈ p.stops) (h : v.isSimple = true)
    (htext : ∀ text, v = .string text → c ∉ text.toList) : c ∉ v.keyText.toList := by
  obtain ⟨hdigit, hhex, hmark, hnull, htrue, hfalse⟩ := p.mark_of_mem c hc
  simp only [List.mem_cons, List.not_mem_nil, or_false, not_or] at hmark
  have hdecimal : ∀ d : Decimal, c ∉ d.render.toList := fun d =>
    Literal.not_mem_decimal d hdigit (by simp [hmark])
  cases v with
  | integer n => exact hdecimal _
  | decimal d => exact hdecimal _
  | null => exact hnull
  | boolean b => cases b <;> assumption
  | uuid u =>
      intro hmem
      rcases Uuid.eq_hyphen_or_isHex u.isGrouped_render.1 hmem with hhyphen | hishex
      · exact hmark.2.1 hhyphen
      · rw [hhex] at hishex
        cases hishex
  | date t => exact Literal.not_mem_date t hdigit (by simp [hmark])
  | string text => exact htext text rfl
  | float | point | array | object => cases h

/-! ## Legible values -/

/-- `v.Legible p` holds when no text in the value has a mark of what it stands in itself, and the names of
fields do not end in front of their values. Of the values that are not collections these are the simple
ones. -/
inductive Legible : Place → Value → Prop where
  | simple {p : Place} {v : Value} (h : v.isSimple = true)
      (text : ∀ text, v = .string text → ∀ c ∈ p.stops, c ∉ text.toList) : Legible p v
  | array {p : Place} {items : List Value} (h : ∀ v ∈ items, Legible .item v) : Legible p (.array items)
  | object {p : Place} {fields : List (String × Value)}
      (names : ∀ field ∈ fields, '=' ∉ field.1.toList ∧ field.1.toList.head? ≠ some '\x7d')
      (h : ∀ field ∈ fields, Legible .field field.2) : Legible p (.object fields)

@[simp]
theorem legible_array_iff {items : List Value} : (array items).Legible p ↔ ∀ v ∈ items, v.Legible .item :=
  ⟨fun | .simple h _ => (by cases h) | .array h => h, .array⟩

@[simp]
theorem legible_object_iff {fields : List (String × Value)} : (object fields).Legible p ↔
    (∀ field ∈ fields, '=' ∉ field.1.toList ∧ field.1.toList.head? ≠ some '\x7d') ∧
      ∀ field ∈ fields, field.2.Legible .field :=
  ⟨fun | .simple h _ => (by cases h) | .object names h => ⟨names, h⟩, fun ⟨names, h⟩ => .object names h⟩

@[simp]
theorem legible_string_iff {text : String} : (string text).Legible p ↔ ∀ c ∈ p.stops, c ∉ text.toList :=
  ⟨fun | .simple _ h => h text rfl, fun h => .simple rfl fun _ heq => string.inj heq ▸ h⟩

/-- The key of a simple value tells its type and its text, which ends at the first mark. -/
theorem tells_coincides (hv : v.isSimple = true) (hw : w.isSimple = true)
    (hvtext : ∀ text, v = .string text → ∀ c ∈ p.stops, c ∉ text.toList)
    (hwtext : ∀ text, w = .string text → ∀ c ∈ p.stops, c ∉ text.toList) :
    p.Tells itemKey Coincides v w := by
  intro r s hr hs h
  rw [itemKey_simple hv, itemKey_simple hw, List.append_assoc, List.append_assoc] at h
  obtain ⟨htype, htexts⟩ := append_cons_inj v.colon_not_mem_keyType w.colon_not_mem_keyType h
  obtain ⟨htext, hrest⟩ := append_inj_of_stops
    (fun c hc => not_mem_keyText hc hv fun text htext => hvtext text htext c hc)
    (fun c hc => not_mem_keyText hc hw fun text htext => hwtext text htext c hc) hr hs htexts
  refine ⟨(groupKey_eq_iff hv hw).mp ?_, hrest⟩
  rw [groupKey_eq_groupKey_iff hv hw]
  exact ⟨String.toList_inj.mp htype, String.toList_inj.mp htext⟩

/-! ## Collections -/

/-- What stands behind the first of some texts: the others, each behind a comma, and the mark that ends
them. -/
def behind {α : Type} (text : α → List Char) (mark : Char) (rest : List Char) (xs : List α) : List Char :=
  xs.flatMap (fun x => ',' :: text x) ++ mark :: rest

/-- Texts with commas between them, and the mark that ends them. -/
def joined {α : Type} (text : α → List Char) (mark : Char) (rest : List Char) : List α → List Char
  | [] => mark :: rest
  | x :: xs => text x ++ behind text mark rest xs

section Joined

variable {α : Type} {text : α → List Char} {mark : Char} {P : α → α → Prop}

theorem behind_cons (x : α) (xs : List α) :
    behind text mark r (x :: xs) = ',' :: (text x ++ behind text mark r xs) := by
  simp [behind]

theorem ends_behind (hp : p.stops = [',', mark]) (xs : List α) : p.Ends (behind text mark r xs) := by
  rw [Place.Ends, hp]
  cases xs <;> rintro c ⟨⟩ <;> simp

theorem intercalate_eq_joined (xs : List α) :
    [','].intercalate (xs.map text) ++ mark :: r = joined text mark r xs := by
  cases xs with
  | nil => rfl
  | cons x xs =>
      rw [joined]
      induction xs generalizing x with
      | nil => simp [behind]
      | cons y xs ih =>
          rw [List.map_cons, List.map_cons, List.intercalate_cons_cons, ← List.map_cons, List.append_assoc,
            List.append_assoc, ih y, behind_cons, List.singleton_append]

variable {xs ys : List α}

/-- What tells items tells how many there are. -/
theorem forall₂_of_behind (hp : p.stops = [',', mark]) (hmark : mark ≠ ',')
    (hitem : ∀ x ∈ xs, ∀ y ∈ ys, p.Tells text P x y) (h : behind text mark r xs = behind text mark s ys) :
    List.Forall₂ P xs ys ∧ r = s := by
  induction xs generalizing ys with
  | nil =>
      cases ys with
      | nil => exact ⟨.nil, (List.cons.inj h).2⟩
      | cons y ys => exact absurd (List.cons.inj h).1 hmark
  | cons x xs ih =>
      cases ys with
      | nil => exact absurd (List.cons.inj h).1.symm hmark
      | cons y ys =>
          rw [behind_cons, behind_cons] at h
          obtain ⟨hfirst, hrest⟩ := hitem x List.mem_cons_self y List.mem_cons_self _ _ (ends_behind hp xs)
            (ends_behind hp ys) (List.cons.inj h).2
          obtain ⟨hothers, heq⟩ := ih
            (fun x hx y hy => hitem x (List.mem_cons_of_mem _ hx) y (List.mem_cons_of_mem _ hy)) hrest
          exact ⟨.cons hfirst hothers, heq⟩

/-- No items are told from some, where these do not begin with the mark that ends them. -/
theorem forall₂_of_joined (hp : p.stops = [',', mark]) (hmark : mark ≠ ',')
    (hx : ∀ x ∈ xs, ∀ rest, (text x ++ rest).head? ≠ some mark)
    (hy : ∀ y ∈ ys, ∀ rest, (text y ++ rest).head? ≠ some mark)
    (hitem : ∀ x ∈ xs, ∀ y ∈ ys, p.Tells text P x y) (h : joined text mark r xs = joined text mark s ys) :
    List.Forall₂ P xs ys ∧ r = s := by
  cases xs with
  | nil =>
      cases ys with
      | nil => exact ⟨.nil, (List.cons.inj h).2⟩
      | cons y ys => exact absurd (congrArg List.head? h).symm (hy y List.mem_cons_self _)
  | cons x xs =>
      cases ys with
      | nil => exact absurd (congrArg List.head? h) (hx x List.mem_cons_self _)
      | cons y ys =>
          obtain ⟨hfirst, hrest⟩ := hitem x List.mem_cons_self y List.mem_cons_self _ _ (ends_behind hp xs)
            (ends_behind hp ys) h
          obtain ⟨hothers, heq⟩ := forall₂_of_behind hp hmark
            (fun x hx y hy => hitem x (List.mem_cons_of_mem _ hx) y (List.mem_cons_of_mem _ hy)) hrest
          exact ⟨.cons hfirst hothers, heq⟩

end Joined

theorem groupKeyItems_eq (items : List Value) : groupKeyItems items = items.map groupKey := by
  induction items with
  | nil => rfl
  | cons v items ih => rw [groupKeyItems, ih, List.map_cons]

theorem groupKeyFields_eq (fields : List (String × Value)) :
    groupKeyFields fields = fields.map fun field => field.1 ++ "=" ++ field.2.groupKey := by
  induction fields with
  | nil => rfl
  | cons field fields ih => rw [groupKeyFields, ih, List.map_cons]

/-- The signs of a field in the key of an object. -/
def fieldKey (field : String × Value) : List Char :=
  field.1.toList ++ '=' :: field.2.itemKey

theorem itemKey_array (items : List Value) (r : List Char) :
    (array items).itemKey ++ r = ['a'] ++ ':' :: '[' :: joined itemKey ']' r items := by
  have htext : itemKey = String.toList ∘ groupKey := rfl
  rw [← intercalate_eq_joined, itemKey, groupKey, groupKeyItems_eq, htext]
  simp [String.toList_intercalate]

theorem itemKey_object (fields : List (String × Value)) (r : List Char) :
    (object fields).itemKey ++ r = ['o'] ++ ':' :: '\x7b' :: joined fieldKey '\x7d' r fields := by
  have htext : fieldKey = String.toList ∘ fun field => field.1 ++ "=" ++ field.2.groupKey := by
    funext field
    simp [fieldKey, itemKey]
  rw [← intercalate_eq_joined, itemKey, groupKey, groupKeyFields_eq, htext]
  simp [String.toList_intercalate]

/-- The type in front of the first colon tells simple values from collections. -/
theorem keyType_ne (h : v.isSimple = true) : v.keyType.toList ≠ ['a'] ∧ v.keyType.toList ≠ ['o'] := by
  cases v with
  | float | point | array | object => cases h
  | _ => simp [keyType, toDecimal?, typeName]

theorem itemKey_ne_array (h : v.isSimple = true) (items : List Value) :
    v.itemKey ++ r ≠ (array items).itemKey ++ s := by
  rw [itemKey_simple h, List.append_assoc, itemKey_array]
  exact fun heq => (keyType_ne h).1 (append_cons_inj v.colon_not_mem_keyType (by decide) heq).1

theorem itemKey_ne_object (h : v.isSimple = true) (fields : List (String × Value)) :
    v.itemKey ++ r ≠ (object fields).itemKey ++ s := by
  rw [itemKey_simple h, List.append_assoc, itemKey_object]
  exact fun heq => (keyType_ne h).2 (append_cons_inj v.colon_not_mem_keyType (by decide) heq).1

theorem itemKey_array_ne_object (items : List Value) (fields : List (String × Value)) :
    (array items).itemKey ++ r ≠ (object fields).itemKey ++ s := by
  rw [itemKey_array, itemKey_object]
  exact fun heq => absurd (List.cons.inj heq).1 (by decide)

/-- A key does not begin with the mark that ends an array. -/
theorem head_itemKey_ne (v : Value) (rest : List Char) : (v.itemKey ++ rest).head? ≠ some ']' := by
  cases v <;> simp [itemKey, groupKey, numberKey]

theorem head_fieldKey_ne {field : String × Value} (h : field.1.toList.head? ≠ some '\x7d')
    (rest : List Char) : (fieldKey field ++ rest).head? ≠ some '\x7d' := by
  rw [fieldKey]
  cases hname : field.1.toList with
  | nil => simp
  | cons c name => simpa [hname] using h

/-- The name of a field ends at the first equals sign. -/
theorem tells_field {f g : String × Value} {P : Value → Value → Prop} (hf : '=' ∉ f.1.toList)
    (hg : '=' ∉ g.1.toList) (h : p.Tells itemKey P f.2 g.2) :
    p.Tells fieldKey (fun f g => f.1 = g.1 ∧ P f.2 g.2) f g := by
  intro r s hr hs heq
  rw [fieldKey, fieldKey, List.append_assoc, List.append_assoc] at heq
  obtain ⟨hname, hkeys⟩ := append_cons_inj hf hg heq
  obtain ⟨hvalue, hrest⟩ := h r s hr hs hkeys
  exact ⟨⟨String.toList_inj.mp hname, hvalue⟩, hrest⟩

theorem tells_array {vs ws : List Value}
    (h : ∀ v ∈ vs, ∀ w ∈ ws, Place.item.Tells itemKey (fun v w => v.agrees w = true) v w) :
    p.Tells itemKey (fun v w => v.agrees w = true) (array vs) (array ws) := by
  intro r s _ _ heq
  rw [itemKey_array, itemKey_array] at heq
  obtain ⟨hagree, hrest⟩ := forall₂_of_joined rfl (by decide) (fun v _ => head_itemKey_ne v)
    (fun w _ => head_itemKey_ne w) h (@List.append_cancel_left _ ['a', ':', '['] _ _ heq)
  exact ⟨agrees_array.trans (agreeItems_iff.mpr hagree), hrest⟩

/-- Objects agree when their fields do in the order of their keys. -/
theorem agrees_object_of_forall₂ {a b : List (String × Value)} (hb : (b.map Prod.fst).Pairwise (· < ·))
    (h : List.Forall₂ (fun f g => f.1 = g.1 ∧ f.2.agrees g.2 = true) a b) :
    (object a).agrees (object b) = true := by
  rw [agrees_object, Bool.and_eq_true, beq_iff_eq, agreeFields_iff]
  refine ⟨h.length_eq, fun f hf => ?_⟩
  obtain ⟨i, hi, rfl⟩ := List.getElem_of_mem hf
  have hi' : i < b.length := h.length_eq ▸ hi
  obtain ⟨hname, hagree⟩ : a[i].1 = b[i].1 ∧ a[i].2.agrees b[i].2 = true := h.get hi hi'
  rw [hname]
  exact ⟨b[i].2, field?_of_mem hb (List.getElem_mem hi'), hagree⟩

theorem tells_object {a b : List (String × Value)} (hb : (b.map Prod.fst).Pairwise (· < ·))
    (ha' : ∀ f ∈ a, f.1.toList.head? ≠ some '\x7d') (hb' : ∀ g ∈ b, g.1.toList.head? ≠ some '\x7d')
    (h : ∀ f ∈ a, ∀ g ∈ b,
      Place.field.Tells fieldKey (fun f g => f.1 = g.1 ∧ f.2.agrees g.2 = true) f g) :
    p.Tells itemKey (fun v w => v.agrees w = true) (object a) (object b) := by
  intro r s _ _ heq
  rw [itemKey_object, itemKey_object] at heq
  obtain ⟨hagree, hrest⟩ := forall₂_of_joined rfl (by decide) (fun f hf => head_fieldKey_ne (ha' f hf))
    (fun g hg => head_fieldKey_ne (hb' g hg)) h (@List.append_cancel_left _ ['o', ':', '\x7b'] _ _ heq)
  exact ⟨agrees_object_of_forall₂ hb hagree, hrest⟩

/-- **A legible key tells the value and where it ends.** -/
theorem Legible.tells_agrees (hv : v.Legible p) (hw : w.Legible p) (hkeyed : w.WellKeyed) :
    p.Tells itemKey (fun v w => v.agrees w = true) v w := by
  induction hv generalizing w with
  | simple hvsimple hvtext =>
      intro r s hr hs h
      cases hw with
      | simple hwsimple hwtext =>
          obtain ⟨hsame, hrest⟩ := tells_coincides hvsimple hwsimple hvtext hwtext r s hr hs h
          exact ⟨hsame.agrees hvsimple, hrest⟩
      | array => exact absurd h (itemKey_ne_array hvsimple _)
      | object => exact absurd h (itemKey_ne_object hvsimple _)
  | array _ ih =>
      cases hw with
      | simple hwsimple => exact fun _ _ _ _ h => absurd h.symm (itemKey_ne_array hwsimple _)
      | array hws =>
          exact tells_array fun v hv w hw => ih v hv (hws w hw) (wellKeyed_array_iff.mp hkeyed w hw)
      | object => exact fun _ _ _ _ h => absurd h (itemKey_array_ne_object _ _)
  | object hnames _ ih =>
      cases hw with
      | simple hwsimple => exact fun _ _ _ _ h => absurd h.symm (itemKey_ne_object hwsimple _)
      | array => exact fun _ _ _ _ h => absurd h.symm (itemKey_array_ne_object _ _)
      | object hnames' hws =>
          obtain ⟨hkeys, hkeyed⟩ := wellKeyed_object_iff.mp hkeyed
          exact tells_object hkeys (fun f hf => (hnames f hf).2) (fun g hg => (hnames' g hg).2)
            fun f hf g hg => tells_field (hnames f hf).1 (hnames' g hg).1 (ih f hf (hws g hg) (hkeyed g hg))

/-- Legible values with one key agree. -/
theorem agrees_of_groupKey_eq (hv : v.Legible .alone) (hw : w.Legible .alone) (hkeyed : w.WellKeyed)
    (h : v.groupKey = w.groupKey) : v.agrees w = true := by
  have hend : Place.alone.Ends [] := fun _ hc => by cases hc
  exact (hv.tells_agrees hw hkeyed [] [] hend hend (by rw [itemKey, itemKey, h])).1

/-- Legible values with one list of keys agree, position by position. -/
theorem agree_of_map_groupKey_eq {vs ws : List Value} (hvs : ∀ v ∈ vs, v.Legible .alone)
    (hws : ∀ w ∈ ws, w.Legible .alone ∧ w.WellKeyed) (h : vs.map groupKey = ws.map groupKey) :
    List.Forall₂ (fun v w => v.agrees w = true) vs ws := by
  induction vs generalizing ws with
  | nil =>
      obtain rfl := List.map_eq_nil_iff.mp h.symm
      exact .nil
  | cons v vs ih =>
      cases ws with
      | nil => cases h
      | cons w ws =>
          obtain ⟨hv, hvs⟩ := List.forall_mem_cons.mp hvs
          obtain ⟨⟨hw, hkeyed⟩, hws⟩ := List.forall_mem_cons.mp hws
          obtain ⟨hfirst, hothers⟩ := List.cons.inj h
          exact .cons (agrees_of_groupKey_eq hv hw hkeyed hfirst) (ih hvs hws hothers)

end RecordQuery.Value
