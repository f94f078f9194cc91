import Mathlib.Tactic

/-! Byte strings made of entries: the size of each in one byte, then its bytes. -/
namespace SizedEntries

def encodeEntry (e : List UInt8) : List UInt8 := UInt8.ofNat e.length :: e

def encode (es : List (List UInt8)) : List UInt8 := es.flatMap encodeEntry

/-- The entries that a byte string is made of; `none` if the last one is cut off. -/
def parse : List UInt8 → Option (List (List UInt8))
  | [] => some []
  | n :: bs =>
    if bs.length < n.toNat then none
    else (parse (bs.drop n.toNat)).map (bs.take n.toNat :: ·)
termination_by bs => bs.length
decreasing_by
  simp only [List.length_drop, List.length_cons]
  omega

theorem parse_nil : parse [] = some [] := by rw [parse]

theorem parse_entry {e : List UInt8} (he : e.length < 256) (bs : List UInt8) :
    parse (encodeEntry e ++ bs) = (parse bs).map (e :: ·) := by
  have hsize : (UInt8.ofNat e.length).toNat = e.length := UInt8.toNat_ofNat_of_lt' he
  have hfit : ¬ (e ++ bs).length < e.length := by
    rw [List.length_append]
    omega
  rw [encodeEntry, List.cons_append, parse, hsize, if_neg hfit, List.drop_left, List.take_left]

theorem parse_encode {es : List (List UInt8)} (h : ∀ e ∈ es, e.length < 256) :
    parse (encode es) = some es := by
  induction es with
  | nil => exact parse_nil
  | cons e es ih =>
    have hrest := ih fun e' he' => h e' (List.mem_cons_of_mem _ he')
    rw [encode, List.flatMap_cons, parse_entry (h e List.mem_cons_self)]
    rw [encode] at hrest
    rw [hrest]
    rfl

theorem encodeEntry_injective : Function.Injective encodeEntry :=
  fun _ _ h => (List.cons.inj h).2

theorem encode_toList_eq {o : Option (List UInt8)} {e : List UInt8} :
    encode o.toList = encodeEntry e ↔ o = some e := by
  cases o with
  | none => exact ⟨fun h => absurd h.symm (List.cons_ne_nil _ _), fun h => by cases h⟩
  | some e' =>
    rw [Option.toList_some, encode, List.flatMap_singleton, encodeEntry_injective.eq_iff, Option.some_inj]

theorem encode_append (es es' : List (List UInt8)) : encode (es ++ es') = encode es ++ encode es' :=
  List.flatMap_append

end SizedEntries
