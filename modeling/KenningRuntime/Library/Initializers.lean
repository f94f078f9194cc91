import KenningRuntime.Library.LittleEndian

/-! Packed aggregates and their initializer lists: the bytes that a list gives, and the numbers that are
read back from the bytes. -/
namespace Initializers
open LittleEndian

/-- A packed type. A record is the list of its fields. -/
inductive Layout where
  | scalar (width : ℕ)
  | array (length : ℕ) (element : Layout)
  | closed
  | field (first rest : Layout)
deriving DecidableEq, Repr

/-- A number, or a list in braces. -/
inductive Initializer where
  | number (value : ℤ)
  | closed
  | item (first rest : Initializer)
deriving DecidableEq, Repr

namespace Layout

def size : Layout → ℕ
  | scalar width => width
  | array length element => length*element.size
  | closed => 0
  | field first rest => first.size+rest.size

/-- Where the scalar at the end of a path is, and its width. A path names an index of an array or the
number of a field. -/
def locate : Layout → List ℕ → Option (ℕ × ℕ)
  | scalar width, [] => some (0, width)
  | array length element, i :: path =>
    if i < length then (element.locate path).map fun p => (i*element.size+p.1, p.2) else none
  | field first _, 0 :: path => first.locate path
  | field first rest, (i+1) :: path =>
    (rest.locate (i :: path)).map fun p => (first.size+p.1, p.2)
  | _, _ => none

def record : List Layout → Layout := List.foldr field closed

end Layout

namespace Initializer

def ofList : List Initializer → Initializer := List.foldr item closed

def numbers (values : List ℤ) : Initializer := ofList (values.map number)

/-- The bytes of an object; `none` if the list has more items than the object has room for. What it has
no item for is zero, and a number is reduced to the width of its scalar. -/
def bytes : Initializer → Layout → Option (List UInt8)
  | number value, .scalar width => some (toBytes width (value%256^width).toNat)
  | closed, .array length element => some (List.replicate (length*element.size) 0)
  | closed, .closed => some []
  | closed, .field first rest => some (List.replicate (first.size+rest.size) 0)
  | item first rest, .array (length+1) element =>
    match first.bytes element, rest.bytes (.array length element) with
    | some bs, some bs' => some (bs ++ bs')
    | _, _ => none
  | item first rest, .field layout layouts =>
    match first.bytes layout, rest.bytes layouts with
    | some bs, some bs' => some (bs ++ bs')
    | _, _ => none
  | _, _ => none

/-- What the list says about the scalar at the end of a path. -/
def value : Initializer → List ℕ → ℤ
  | number value, [] => value
  | item first _, 0 :: path => first.value path
  | item _ rest, (i+1) :: path => rest.value (i :: path)
  | _, _ => 0

@[simp] theorem value_closed (path : List ℕ) : closed.value path = 0 := by
  cases path with
  | nil => rfl
  | cons i path => cases i <;> rfl

@[simp] theorem value_ofList (items : List Initializer) (i : ℕ) (path : List ℕ) :
    (ofList items).value (i :: path) = (items[i]?.map fun item => item.value path).getD 0 := by
  induction items generalizing i with
  | nil => exact value_closed _
  | cons first items ih =>
    cases i with
    | zero => rfl
    | succ i => exact ih i

@[simp] theorem value_numbers (values : List ℤ) (i : ℕ) :
    (numbers values).value [i] = values[i]?.getD 0 := by
  rw [numbers, value_ofList, List.getElem?_map, Option.map_map]
  cases values[i]? with
  | none => rfl
  | some value => rfl

/-! ### When a list fits -/

@[simp] theorem bytes_number (value : ℤ) (width : ℕ) :
    (number value).bytes (.scalar width) = some (toBytes width (value%256^width).toNat) := rfl

theorem bytes_item_field {first rest : Initializer} {layout layouts : Layout} {bs : List UInt8} :
    (item first rest).bytes (.field layout layouts) = some bs ↔
      ∃ bs₁ bs₂, first.bytes layout = some bs₁ ∧ rest.bytes layouts = some bs₂ ∧ bs = bs₁ ++ bs₂ := by
  rw [bytes]
  constructor
  · intro h
    split at h
    · next bs₁ bs₂ hfirst hrest =>
      cases h
      exact ⟨bs₁, bs₂, hfirst, hrest, rfl⟩
    · cases h
  · intro h
    obtain ⟨bs₁, bs₂, hfirst, hrest, rfl⟩ := h
    rw [hfirst, hrest]

theorem bytes_item_array {first rest : Initializer} {length : ℕ} {element : Layout}
    {bs : List UInt8} :
    (item first rest).bytes (.array length element) = some bs ↔
      ∃ n bs₁ bs₂, length = n+1 ∧ first.bytes element = some bs₁ ∧
        rest.bytes (.array n element) = some bs₂ ∧ bs = bs₁ ++ bs₂ := by
  constructor
  · intro h
    cases length with
    | zero => exact nomatch h
    | succ n =>
      rw [bytes] at h
      split at h
      · next bs₁ bs₂ hfirst hrest =>
        cases h
        exact ⟨n, bs₁, bs₂, rfl, hfirst, hrest, rfl⟩
      · cases h
  · intro h
    obtain ⟨n, bs₁, bs₂, rfl, hfirst, hrest, rfl⟩ := h
    rw [bytes, hfirst, hrest]

/-- A list for a record has no more items than the record has fields, and each of them fits. -/
theorem bytes_item_field_isSome {first rest : Initializer} {layout layouts : Layout} :
    ((item first rest).bytes (.field layout layouts)).isSome = true ↔
      (first.bytes layout).isSome = true ∧ (rest.bytes layouts).isSome = true := by
  simp only [Option.isSome_iff_exists, bytes_item_field]
  constructor
  · intro h
    obtain ⟨_, bs₁, bs₂, hfirst, hrest, -⟩ := h
    exact ⟨⟨bs₁, hfirst⟩, bs₂, hrest⟩
  · intro h
    obtain ⟨⟨bs₁, hfirst⟩, bs₂, hrest⟩ := h
    exact ⟨_, bs₁, bs₂, hfirst, hrest, rfl⟩

/-- The same for an array. -/
theorem bytes_ofList_array_isSome {items : List Initializer} {length : ℕ} {element : Layout} :
    ((ofList items).bytes (.array length element)).isSome = true ↔
      items.length ≤ length ∧ ∀ item ∈ items, (item.bytes element).isSome = true := by
  induction items generalizing length with
  | nil =>
    refine iff_of_true rfl ⟨Nat.zero_le _, ?_⟩
    intro _ h
    exact absurd h List.not_mem_nil
  | cons first items ih =>
    cases length with
    | zero =>
      apply iff_of_false
      · exact Bool.false_ne_true
      · intro h
        exact absurd h.1 (by rw [List.length_cons]; omega)
    | succ length =>
      -- The first item goes into the first element, the others into an array that is one shorter.
      have hstep : ((ofList (first :: items)).bytes (.array (length+1) element)).isSome = true ↔
          (first.bytes element).isSome = true ∧
            ((ofList items).bytes (.array length element)).isSome = true := by
        simp only [Option.isSome_iff_exists]
        constructor
        · intro h
          obtain ⟨bs, h⟩ := h
          obtain ⟨n, bs₁, bs₂, hn, hfirst, hrest, -⟩ := bytes_item_array.mp h
          obtain rfl : length = n := by omega
          exact ⟨⟨bs₁, hfirst⟩, bs₂, hrest⟩
        · intro h
          obtain ⟨⟨bs₁, hfirst⟩, bs₂, hrest⟩ := h
          exact ⟨_, bytes_item_array.mpr ⟨length, bs₁, bs₂, rfl, hfirst, hrest, rfl⟩⟩
      rw [hstep, ih, List.length_cons, List.forall_mem_cons]
      constructor
      · intro h
        exact ⟨by omega, h.1, h.2.2⟩
      · intro h
        exact ⟨h.2.1, by omega, h.2.2⟩

/-- An object that is made of two: the items that are left are those of the second one. -/
theorem bytes_append_record {items items' : List Initializer} {layouts layouts' : List Layout}
    (hlength : items.length = layouts.length) {bs : List UInt8} :
    (ofList (items ++ items')).bytes (.record (layouts ++ layouts')) = some bs ↔
      ∃ bs₁ bs₂, (ofList items).bytes (.record layouts) = some bs₁ ∧
        (ofList items').bytes (.record layouts') = some bs₂ ∧ bs = bs₁ ++ bs₂ := by
  induction items generalizing layouts bs with
  | nil =>
    obtain rfl : layouts = [] := List.length_eq_zero_iff.mp hlength.symm
    constructor
    · exact fun h => ⟨[], bs, rfl, h, rfl⟩
    · intro h
      obtain ⟨bs₁, bs₂, hnil, h, rfl⟩ := h
      cases hnil
      exact h
  | cons first items ih =>
    cases layouts with
    | nil => cases hlength
    | cons layout layouts =>
      have hrest := Nat.succ.inj hlength
      -- The first item is that of the first field, on both sides.
      have hleft (bs : List UInt8) :
          (ofList (first :: items ++ items')).bytes (.record (layout :: layouts ++ layouts')) = some bs ↔
            ∃ bs₁ bs₂, first.bytes layout = some bs₁ ∧
              (ofList (items ++ items')).bytes (.record (layouts ++ layouts')) = some bs₂ ∧
              bs = bs₁ ++ bs₂ := bytes_item_field
      have hright (bs : List UInt8) :
          (ofList (first :: items)).bytes (.record (layout :: layouts)) = some bs ↔
            ∃ bs₁ bs₂, first.bytes layout = some bs₁ ∧
              (ofList items).bytes (.record layouts) = some bs₂ ∧ bs = bs₁ ++ bs₂ := bytes_item_field
      rw [hleft]
      constructor
      · intro h
        obtain ⟨bs₀, bs', hfirst, htail, rfl⟩ := h
        obtain ⟨bs₁, bs₂, hitems, hitems', rfl⟩ := (ih hrest).mp htail
        refine ⟨bs₀ ++ bs₁, bs₂, (hright _).mpr ⟨bs₀, bs₁, hfirst, hitems, rfl⟩, hitems', ?_⟩
        rw [List.append_assoc]
      · intro h
        obtain ⟨bs', bs₂, hrecord, hitems', rfl⟩ := h
        obtain ⟨bs₀, bs₁, hfirst, hitems, rfl⟩ := (hright _).mp hrecord
        refine ⟨bs₀, bs₁ ++ bs₂, hfirst, (ih hrest).mpr ⟨bs₁, bs₂, hitems, hitems', rfl⟩, ?_⟩
        rw [List.append_assoc]

/-- A list with one item for each field of a record fits if each item fits its field. -/
theorem bytes_record_isSome {items : List Initializer} {layouts : List Layout}
    (hlength : items.length = layouts.length) :
    ((ofList items).bytes (.record layouts)).isSome = true ↔
      ∀ p ∈ items.zip layouts, (p.1.bytes p.2).isSome = true := by
  induction items generalizing layouts with
  | nil =>
    obtain rfl : layouts = [] := List.length_eq_zero_iff.mp hlength.symm
    refine iff_of_true rfl ?_
    intro p hp
    exact absurd hp List.not_mem_nil
  | cons first items ih =>
    cases layouts with
    | nil => cases hlength
    | cons layout layouts =>
      have hstep : ((ofList (first :: items)).bytes (.record (layout :: layouts))).isSome = true ↔
          (first.bytes layout).isSome = true ∧
            ((ofList items).bytes (.record layouts)).isSome = true := bytes_item_field_isSome
      rw [hstep, ih (Nat.succ.inj hlength), List.zip_cons_cons, List.forall_mem_cons]

/-- The characters of a string, and zeros up to the end of the array. -/
theorem bytes_text {s : List UInt8} {length : ℕ} (h : s.length ≤ length) :
    (numbers (s.map fun c => (c.toNat : ℤ))).bytes (.array length (.scalar 1)) =
      some (s ++ List.replicate (length-s.length) 0) := by
  induction s generalizing length with
  | nil =>
    have hzeros : length*1 = length := Nat.mul_one length
    rw [List.nil_append, List.length_nil, Nat.sub_zero]
    show some (List.replicate (length*1) 0) = some (List.replicate length 0)
    rw [hzeros]
  | cons c s ih =>
    rw [List.length_cons] at h
    obtain ⟨n, rfl⟩ : ∃ n, length = n+1 := ⟨length-1, by omega⟩
    apply bytes_item_array.mpr
    refine ⟨n, [c], _, rfl, ?_, ih (by omega), ?_⟩
    · have hc := c.toNat_lt
      have hmod : ((c.toNat : ℤ)%256^1).toNat = c.toNat := by omega
      rw [bytes_number, hmod, toBytes, toBytes, UInt8.ofNat_toNat]
    · rw [List.cons_append, List.singleton_append, List.length_cons, Nat.add_sub_add_right]

theorem bytes_numbers_isSome {values : List ℤ} {length width : ℕ} :
    ((numbers values).bytes (.array length (.scalar width))).isSome = true ↔
      values.length ≤ length := by
  rw [numbers, bytes_ofList_array_isSome, List.length_map]
  apply and_iff_left
  intro item hitem
  obtain ⟨value, -, rfl⟩ := List.mem_map.mp hitem
  rfl

/-! ### The bytes of a list that fits -/

theorem length_bytes {i : Initializer} {layout : Layout} {bs : List UInt8}
    (h : i.bytes layout = some bs) : bs.length = layout.size := by
  induction i generalizing layout bs with
  | number value =>
    cases layout with
    | scalar width =>
      cases h
      exact length_toBytes _ _
    | array _ _ => cases h
    | closed => cases h
    | field _ _ => cases h
  -- What has no item is zero, and as long as the layout says.
  | closed =>
    cases layout with
    | scalar _ => cases h
    | array length element =>
      cases h
      exact List.length_replicate
    | closed =>
      cases h
      rfl
    | field first rest =>
      cases h
      exact List.length_replicate
  | item first rest ihfirst ihrest =>
    cases layout with
    | scalar _ => cases h
    | array length element =>
      obtain ⟨n, bs₁, bs₂, rfl, hfirst, hrest, rfl⟩ := bytes_item_array.mp h
      rw [List.length_append, ihfirst hfirst, ihrest hrest, Layout.size, Layout.size]
      ring
    | closed => cases h
    | field layout layouts =>
      obtain ⟨bs₁, bs₂, hfirst, hrest, rfl⟩ := bytes_item_field.mp h
      rw [List.length_append, ihfirst hfirst, ihrest hrest, Layout.size]

end Initializer

/-- A path ends inside the object. -/
theorem Layout.locate_le {layout : Layout} {path : List ℕ} {off width : ℕ}
    (h : layout.locate path = some (off, width)) : off+width ≤ layout.size := by
  induction layout generalizing path off with
  | scalar w =>
    cases path with
    | nil =>
      cases h
      exact (Nat.zero_add _).le
    | cons _ _ => cases h
  | array length element ih =>
    cases path with
    | nil => cases h
    | cons i path =>
      rw [Layout.locate] at h
      split at h
      · next hi =>
        obtain ⟨⟨off', width'⟩, hlocate, heq⟩ := Option.map_eq_some_iff.mp h
        cases heq
        have hle := ih hlocate
        -- The elements up to this one take `i+1` times the size of one.
        have hrow : (i+1)*element.size ≤ length*element.size := Nat.mul_le_mul_right _ hi
        rw [Nat.succ_mul] at hrow
        rw [Layout.size]
        omega
      · cases h
  | closed => cases path <;> cases h
  | field first rest ihfirst ihrest =>
    cases path with
    | nil => cases h
    | cons i path =>
      cases i with
      | zero =>
        have hle := ihfirst h
        rw [Layout.size]
        omega
      | succ i =>
        obtain ⟨⟨off', width'⟩, hlocate, heq⟩ := Option.map_eq_some_iff.mp h
        cases heq
        have hle := ihrest hlocate
        rw [Layout.size]
        omega

namespace Initializer

theorem word_replicate_zero (n off width : ℕ) : word (List.replicate n 0) off width = 0 := by
  have hzero (k : ℕ) : ofBytes (List.replicate k 0) = 0 := by
    induction k with
    | zero => rfl
    | succ k ih =>
      rw [List.replicate_succ, ofBytes, ih]
      rfl
  rw [word, List.drop_replicate, List.take_replicate]
  exact hzero _

theorem word_skip {bs tail : List UInt8} {off width n : ℕ} (h : bs.length = n) :
    word (bs ++ tail) (n+off) width = word tail off width := by
  rw [word, word, ← h, List.drop_length_add_append]

/-- Every scalar of the object is the number that the list says, reduced to its width. -/
theorem word_bytes {i : Initializer} {layout : Layout} {bs : List UInt8}
    (h : i.bytes layout = some bs) {path : List ℕ} {off width : ℕ}
    (hpath : layout.locate path = some (off, width)) :
    word bs off width = (i.value path%256^width).toNat := by
  induction i generalizing layout bs path off with
  | number value =>
    cases layout with
    | scalar w =>
      cases h
      cases path with
      | cons _ _ => cases hpath
      | nil =>
        cases hpath
        have hlt : (value%256^width).toNat < 256^width := by
          have hpos : (0:ℤ) < 256^width := by positivity
          have hmod := Int.emod_lt_of_pos value hpos
          rw [Int.toNat_lt (Int.emod_nonneg _ hpos.ne')]
          exact_mod_cast hmod
        have hword := @word_toBytes_zero [] width _ hlt
        rwa [List.append_nil] at hword
    | array _ _ => cases h
    | closed => cases h
    | field _ _ => cases h
  | closed =>
    have hzeros : ∃ n, bs = List.replicate n 0 := by
      cases layout with
      | scalar _ => cases h
      | array length element =>
        cases h
        exact ⟨_, rfl⟩
      | closed =>
        cases h
        exact ⟨0, rfl⟩
      | field first rest =>
        cases h
        exact ⟨_, rfl⟩
    obtain ⟨n, rfl⟩ := hzeros
    rw [word_replicate_zero, value_closed, Int.zero_emod, Int.toNat_zero]
  | item first rest ihfirst ihrest =>
    cases layout with
    | scalar _ => cases h
    | closed => cases h
    | array length element =>
      obtain ⟨n, bs₁, bs₂, rfl, hfirst, hrest, rfl⟩ := bytes_item_array.mp h
      have hlength := length_bytes hfirst
      cases path with
      | nil => cases hpath
      | cons k path =>
        rw [Layout.locate] at hpath
        split at hpath
        · next hk =>
          obtain ⟨⟨off', width'⟩, hlocate, heq⟩ := Option.map_eq_some_iff.mp hpath
          cases heq
          cases k with
          | zero =>
            have hle := Layout.locate_le hlocate
            simp only [Nat.zero_mul, Nat.zero_add]
            rw [word_append (by omega), ihfirst hfirst hlocate, value]
          | succ k =>
            -- The others are an array with one element less.
            have hrow : (Layout.array n element).locate (k :: path) =
                some (k*element.size+off', width') := by
              rw [Layout.locate, if_pos (by omega), hlocate, Option.map_some]
            have hoff : (k+1)*element.size+off' = element.size+(k*element.size+off') := by ring
            simp only [hoff]
            rw [word_skip hlength, ihrest hrest hrow, value]
        · cases hpath
    | field layout layouts =>
      obtain ⟨bs₁, bs₂, hfirst, hrest, rfl⟩ := bytes_item_field.mp h
      have hlength := length_bytes hfirst
      cases path with
      | nil => cases hpath
      | cons k path =>
        cases k with
        | zero =>
          have hlocate : layout.locate path = some (off, width) := hpath
          have hle := Layout.locate_le hlocate
          rw [word_append (by omega), ihfirst hfirst hlocate, value]
        | succ k =>
          obtain ⟨⟨off', width'⟩, hlocate, heq⟩ := Option.map_eq_some_iff.mp hpath
          cases heq
          simp only
          rw [word_skip hlength, ihrest hrest hlocate, value]

end Initializer

end Initializers
