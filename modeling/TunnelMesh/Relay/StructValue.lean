import TunnelMesh.Rounding
import Mathlib.Data.List.Basic

namespace TunnelMesh.Relay

open Rounding Option List

-- What a message is made of. The strings of the language are any bytes, those of
-- a message are Unicode, and its numbers are all of one type.
inductive Field where
  | bool (b : Bool)
  | int (z : ℤ)
  | string (s : ByteArray)

inductive Value where
  | bool (b : Bool)
  | number (x : Float64)
  | string (s : String)

-- `structpb.NewValue`; none stands for its error.
def newValue : Field → Option Value
  | .bool b => some (.bool b)
  | .int z => some (.number (.ofInt z))
  | .string s => (String.fromUTF8? s).map .string

abbrev Fields := List (String × Value)

def newStruct (fields : List (String × Field)) : Option Fields :=
  fields.mapM fun entry => (newValue entry.2).map (entry.1, ·)

def getStringValue : Option Value → ByteArray
  | some (.string s) => s.toByteArray
  | _ => ByteArray.empty

def getBoolValue : Option Value → Bool
  | some (.bool b) => b
  | _ => false

def getNumberValue : Option Value → Float64
  | some (.number x) => x
  | _ => .ofInt 0

def Field.Encodable : Field → Prop
  | .string s => s.IsValidUTF8
  | _ => True

theorem isSome_newValue : (newValue field).isSome ↔ field.Encodable := by
  cases field with
  | bool | int => exact ⟨fun _ => trivial, fun _ => rfl⟩
  | string s =>
    rw [newValue, isSome_map, String.fromUTF8?, Field.Encodable]
    split
    · rename_i hv; exact ⟨fun _ => hv, fun _ => rfl⟩
    · rename_i hi; exact ⟨fun h => (nomatch h), fun h => absurd h hi⟩

theorem newStruct_cons (h : newStruct (entry :: rest) = some message) :
    ∃ value tail, newValue entry.2 = some value ∧ newStruct rest = some tail ∧ message = (entry.1, value) :: tail := by
  rw [newStruct, mapM_cons] at h
  obtain ⟨head, hh, hr⟩ := bind_eq_some_iff.mp h
  obtain ⟨tail, ht, hm⟩ := bind_eq_some_iff.mp hr
  obtain ⟨value, hv, rfl⟩ := map_eq_some_iff.mp hh
  cases hm
  exact ⟨value, tail, hv, ht, rfl⟩

theorem lookup_newStruct (h : newStruct fields = some message) (hkey : fields.lookup key = some field) :
    ∃ value, newValue field = some value ∧ message.lookup key = some value := by
  induction fields generalizing message with
  | nil => cases hkey
  | cons entry rest ih =>
    obtain ⟨name, head⟩ := entry
    obtain ⟨value, tail, hv, ht, rfl⟩ := newStruct_cons h
    rw [lookup_cons] at hkey ⊢
    cases hn : key == name with
    | true =>
      rw [hn] at hkey
      cases hkey
      exact ⟨value, hv, rfl⟩
    | false => rw [hn] at hkey; exact ih ht hkey

section Get

section

variable (h : newStruct fields = some message)

include h

theorem getStringValue_lookup (key : String)
    (hkey : fields.lookup key = some (.string s)) : getStringValue (message.lookup key) = s := by
  obtain ⟨value, hv, hl⟩ := lookup_newStruct h hkey
  have hvalid : s.IsValidUTF8 := isSome_newValue.mp (isSome_iff_exists.mpr ⟨value, hv⟩)
  rw [newValue, String.fromUTF8?, dif_pos hvalid] at hv
  cases hv
  rw [hl]
  rfl

theorem getBoolValue_lookup (key : String)
    (hkey : fields.lookup key = some (.bool b)) : getBoolValue (message.lookup key) = b := by
  obtain ⟨value, hv, hl⟩ := lookup_newStruct h hkey
  cases hv
  rw [hl]
  rfl

theorem getNumberValue_lookup (key : String)
    (hkey : fields.lookup key = some (.int z)) : getNumberValue (message.lookup key) = .ofInt z := by
  obtain ⟨value, hv, hl⟩ := lookup_newStruct h hkey
  cases hv
  rw [hl]
  rfl

end

end Get

theorem isSome_newStruct : (newStruct fields).isSome ↔ ∀ entry ∈ fields, entry.2.Encodable := by
  induction fields with
  | nil => exact ⟨fun _ entry he => absurd he not_mem_nil, fun _ => rfl⟩
  | cons entry rest ih =>
    rw [forall_mem_cons, ← ih, ← isSome_newValue]
    constructor
    · intro h
      obtain ⟨message, hm⟩ := isSome_iff_exists.mp h
      obtain ⟨value, tail, hv, ht, -⟩ := newStruct_cons hm
      exact ⟨isSome_iff_exists.mpr ⟨value, hv⟩, isSome_iff_exists.mpr ⟨tail, ht⟩⟩
    · rintro ⟨hh, ht⟩
      obtain ⟨value, hv⟩ := isSome_iff_exists.mp hh
      obtain ⟨tail, hr⟩ := isSome_iff_exists.mp ht
      rw [newStruct] at hr
      rw [newStruct, mapM_cons, hv, hr]
      rfl

end TunnelMesh.Relay
