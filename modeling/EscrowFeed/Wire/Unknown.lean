/-
Passing over fields that a reader does not know.

An unknown field says enough about itself to be passed over: its layout gives
its length, except for a group, which goes on until the key that ends it. What
stands in a group is unknown fields again, whatever their tags.

The recursion of `skipField` is on the depth that is left. It is a rule of the
format as it is read here: a field that is met with no depth left is an error,
even one that is no group, while the key that ends a group belongs to the group
and costs nothing.
-/
import EscrowFeed.Success
import EscrowFeed.Wire.Basic

set_option autoImplicit false

namespace EscrowFeed.Wire

/-- The bytes after a group, whose fields are passed over by `skip`. -/
def skipGroup (skip : Key → Bytes → Except Cause Bytes) (tag : Nat) (s : Bytes) :
    Except Cause Bytes :=
  match readKey s with
  | .error cause => .error cause
  | .ok (key, rest) =>
    if key.type = .endGroup then
      if key.tag = tag then .ok rest else .error .strayEndGroup
    else
      match skip key rest with
      | .error cause => .error cause
      | .ok rest => if rest.length < s.length then skipGroup skip tag rest else .error .underflow
termination_by s.length

/-- The bytes after the content of a field. -/
def skipField : Nat → Key → Bytes → Except Cause Bytes
  | 0, _, _ => .error .tooDeep
  | depth + 1, key, s =>
    match key.type with
    | .varint => (readVarint s).map Prod.snd
    | .sixtyFourBit => (readBytes 8 s).map Prod.snd
    | .thirtyTwoBit => (readBytes 4 s).map Prod.snd
    | .lengthDelimited => (readBlock s).map Prod.snd
    | .startGroup => skipGroup (skipField depth) key.tag s
    | .endGroup => .error .strayEndGroup

theorem skipGroup_length {skip : Key → Bytes → Except Cause Bytes} {tag : Nat} {s rest : Bytes}
    (h : skipGroup skip tag s = .ok rest) : rest.length ≤ s.length := by
  fun_induction skipGroup skip tag s with
  | case1 => simp at h
  | case2 s key after hkey =>
    simp only [Except.ok.injEq] at h
    subst h
    exact Nat.le_of_lt (readKey_length hkey)
  | case3 => simp at h
  | case4 => simp at h
  | case5 s key after hkey _ rest' hskip hlt ih => exact Nat.le_trans (ih h) (Nat.le_of_lt hlt)
  | case6 => simp at h

/-- Passing over a field never lengthens what is left. -/
theorem skipField_length {depth : Nat} {key : Key} {s rest : Bytes}
    (h : skipField depth key s = .ok rest) : rest.length ≤ s.length := by
  cases depth with
  | zero => simp [skipField] at h
  | succ depth =>
    rw [skipField] at h
    split at h
    · obtain ⟨_, hread, rfl⟩ := Success.map_eq_ok.mp h
      exact Nat.le_of_lt (readVarint_length hread)
    · obtain ⟨_, hread, rfl⟩ := Success.map_eq_ok.mp h
      exact readBytes_length hread
    · obtain ⟨_, hread, rfl⟩ := Success.map_eq_ok.mp h
      exact readBytes_length hread
    · obtain ⟨_, hread, rfl⟩ := Success.map_eq_ok.mp h
      exact readBlock_length hread
    · exact skipGroup_length h
    · simp at h

end EscrowFeed.Wire
