import RecordQuery.Value.Json
import RecordQuery.Value.Order
import Mathlib.Data.List.Induction
import Mathlib.Data.List.Forall2
import Mathlib.Data.List.Perm.Subperm
/-!
# Arrays and objects

An object is the list of its fields in the order of their keys, each key once (`Value.IsObject`), and a key
finds its own field (`Value.field?_of_mem`). `Value.WellKeyed` says so of every object in a value, at any
depth. What is built from fields is well keyed when the values of the fields are, and so is what a document
stands for (`Value.wellKeyed_ofJson`).

Arrays agree when they do so item by item (`Value.agreeItems_iff`), and objects that have as many fields when
every field of the one is found in the other, with a value that agrees (`Value.agreeFields_iff`).
-/

namespace RecordQuery.Value

variable {fields : List (String × Value)} {key : String} {value : Value}

/-! ## Objects -/

/-- `v.IsObject` holds for an object whose keys are in order, each once. -/
def IsObject (v : Value) : Prop :=
  ∃ fields, v = .object fields ∧ (fields.map Prod.fst).Pairwise (· < ·)

/-- What is a field after one was set, is the one that was set or was there before. -/
theorem mem_setField {field : String × Value} (h : field ∈ setField key value fields) :
    field = (key, value) ∨ field ∈ fields := by
  induction fields with
  | nil => exact .inl (List.mem_singleton.mp h)
  | cons first fields ih =>
      rw [setField] at h
      split at h
      next => exact List.mem_cons.mp h
      next =>
        split at h
        next => exact (List.mem_cons.mp h).imp_right (List.mem_cons_of_mem _)
        next =>
          rcases List.mem_cons.mp h with rfl | h
          · exact .inr List.mem_cons_self
          · exact (ih h).imp_right (List.mem_cons_of_mem _)

theorem mem_keys_setField {k : String} (h : k ∈ (setField key value fields).map Prod.fst) :
    k = key ∨ k ∈ fields.map Prod.fst := by
  obtain ⟨field, hfield, rfl⟩ := List.mem_map.mp h
  exact (mem_setField hfield).imp (congrArg Prod.fst) (List.mem_map_of_mem (f := Prod.fst))

/-- Setting a field keeps the keys in order. -/
theorem pairwise_setField (key : String) (value : Value) {fields : List (String × Value)}
    (h : (fields.map Prod.fst).Pairwise (· < ·)) :
    ((setField key value fields).map Prod.fst).Pairwise (· < ·) := by
  induction fields with
  | nil => exact List.pairwise_singleton _ _
  | cons field fields ih =>
      obtain ⟨hhead, htail⟩ := List.pairwise_cons.mp h
      rw [setField]
      split
      next hbefore =>
        refine List.pairwise_cons.mpr ⟨fun k hk => ?_, h⟩
        rcases List.mem_cons.mp hk with rfl | hk
        · exact hbefore
        · exact String.lt_trans hbefore (hhead k hk)
      next hbefore =>
        split
        next heq => exact List.pairwise_cons.mpr ⟨heq ▸ hhead, htail⟩
        next hne =>
          refine List.pairwise_cons.mpr ⟨fun k hk => ?_, ih htail⟩
          rcases mem_keys_setField hk with rfl | hk
          · exact Std.lt_of_le_of_ne hbefore (Ne.symm hne)
          · exact hhead k hk

/-- What is built from fields is an object. -/
theorem isObject_ofFields (fields : List (String × Value)) : (ofFields fields).IsObject := by
  refine ⟨_, rfl, ?_⟩
  induction fields using List.reverseRecOn with
  | nil => exact .nil
  | append_singleton fields field ih =>
      rw [List.foldl_append]
      exact pairwise_setField _ _ ih

theorem nodup_of_pairwise (h : (fields.map Prod.fst).Pairwise (· < ·)) : (fields.map Prod.fst).Nodup := by
  refine List.nodup_iff_pairwise_ne.mpr (h.imp ?_)
  rintro k _ hlt rfl
  exact String.lt_irrefl k hlt

theorem field?_of_mem (h : (fields.map Prod.fst).Pairwise (· < ·)) (hmem : (key, value) ∈ fields) :
    field? fields key = some value := by
  unfold field?
  induction fields with
  | nil => cases hmem
  | cons field fields ih =>
      obtain ⟨hhead, htail⟩ := List.pairwise_cons.mp h
      rw [List.lookup_cons]
      rcases List.mem_cons.mp hmem with rfl | hmem
      · rw [beq_self_eq_true]
      · have hne : (key == field.1) = false := by
          rw [beq_eq_false_iff_ne]
          rintro rfl
          exact String.lt_irrefl _ (hhead _ (List.mem_map.mpr ⟨_, hmem, rfl⟩))
        rw [hne]
        exact ih htail hmem

theorem mem_of_field? (h : field? fields key = some value) : (key, value) ∈ fields := by
  unfold field? at h
  induction fields with
  | nil => cases h
  | cons field fields ih =>
      rw [List.lookup_cons] at h
      split at h
      next heq =>
        rw [eq_of_beq heq, ← Option.some.inj h]
        exact List.mem_cons_self
      next => exact List.mem_cons_of_mem _ (ih h)

/-! ## Objects at any depth -/

/-- `v.isCollection` holds for arrays and objects. -/
def isCollection : Value → Bool
  | .array _ | .object _ => true
  | _ => false

/-- `v.WellKeyed` holds when every object in the value has its keys in order, each once. -/
inductive WellKeyed : Value → Prop where
  | scalar {v : Value} (h : v.isCollection = false) : WellKeyed v
  | array {items : List Value} (h : ∀ v ∈ items, WellKeyed v) : WellKeyed (.array items)
  | object {fields : List (String × Value)} (keys : (fields.map Prod.fst).Pairwise (· < ·))
      (h : ∀ field ∈ fields, WellKeyed field.2) : WellKeyed (.object fields)

@[simp]
theorem wellKeyed_array_iff {items : List Value} : (array items).WellKeyed ↔ ∀ v ∈ items, v.WellKeyed :=
  ⟨fun | .scalar h => (by cases h) | .array h => h, .array⟩

@[simp]
theorem wellKeyed_object_iff : (object fields).WellKeyed ↔
    (fields.map Prod.fst).Pairwise (· < ·) ∧ ∀ field ∈ fields, field.2.WellKeyed :=
  ⟨fun | .scalar h => (by cases h) | .object keys h => ⟨keys, h⟩, fun ⟨keys, h⟩ => .object keys h⟩

theorem wellKeyed_ofFields (h : ∀ field ∈ fields, field.2.WellKeyed) : (ofFields fields).WellKeyed := by
  obtain ⟨_, heq, hkeys⟩ := isObject_ofFields fields
  have hvalues : ∀ field ∈ fields.foldl (fun object field => setField field.1 field.2 object) [],
      field.2.WellKeyed := by
    clear heq
    induction fields using List.reverseRecOn with
    | nil => exact List.forall_mem_nil _
    | append_singleton fields last ih =>
        obtain ⟨hfields, hlast⟩ := List.forall_mem_append.mp h
        intro field hfield
        rw [List.foldl_append] at hfield
        rcases mem_setField hfield with rfl | hfield
        · exact hlast last List.mem_cons_self
        · exact ih hfields field hfield
  cases heq
  exact .object hkeys hvalues

theorem isCollection_ofJsonNumber (x : Float) : (ofJsonNumber x).isCollection = false := by
  unfold ofJsonNumber
  split
  · rfl
  · split <;> rfl

mutual

/-- What a document stands for is well keyed. -/
theorem wellKeyed_ofJson : ∀ j : Json, (ofJson j).WellKeyed
  | .null => .scalar rfl
  | .boolean _ => .scalar rfl
  | .integer _ => .scalar rfl
  | .float x => .scalar (isCollection_ofJsonNumber x)
  | .string _ => .scalar rfl
  | .array items => .array (wellKeyed_ofJsonItems items)
  | .object fields => wellKeyed_ofFields (wellKeyed_ofJsonFields fields)

theorem wellKeyed_ofJsonItems : ∀ (js : List Json), ∀ v ∈ ofJsonItems js, v.WellKeyed
  | [] => List.forall_mem_nil _
  | j :: rest => List.forall_mem_cons.mpr ⟨wellKeyed_ofJson j, wellKeyed_ofJsonItems rest⟩

theorem wellKeyed_ofJsonFields : ∀ (fs : List (String × Json)), ∀ field ∈ ofJsonFields fs, field.2.WellKeyed
  | [] => List.forall_mem_nil _
  | (_, j) :: rest => List.forall_mem_cons.mpr ⟨wellKeyed_ofJson j, wellKeyed_ofJsonFields rest⟩

end

/-! ## Agreement -/

theorem agreeItems_iff {vs ws : List Value} :
    agreeItems vs ws = true ↔ List.Forall₂ (fun v w => v.agrees w = true) vs ws := by
  induction vs generalizing ws with
  | nil => cases ws <;> simp [agreeItems]
  | cons v vs ih => cases ws <;> simp [agreeItems, ih]

theorem agreeFields_iff {a b : List (String × Value)} :
    agreeFields a b = true ↔ ∀ field ∈ a, ∃ w, field? b field.1 = some w ∧ field.2.agrees w = true := by
  induction a with
  | nil => simp [agreeFields]
  | cons field a ih =>
      rw [agreeFields, Bool.and_eq_true, ih, List.forall_mem_cons]
      refine and_congr_left fun _ => ?_
      cases field? b field.1 <;> simp

theorem agrees_array {vs ws : List Value} : (array vs).agrees (array ws) = agreeItems vs ws := by
  rw [agrees]

theorem agrees_object {a b : List (String × Value)} :
    (object a).agrees (object b) = (a.length == b.length && agreeFields a b) := by
  rw [agrees]

end RecordQuery.Value
