namespace IncludeTidy

inductive DeviceError where
  | tookNothing
  | failed (reason : String)
deriving DecidableEq, Repr

def DeviceError.message : DeviceError → String
  | .tookNothing => "failed to write whole buffer"
  | .failed reason => reason

-- A place for bytes. `take` answers how many of the offered bytes the device takes, counted from
-- their start, or why it takes none. A device that was only interrupted is asked again at once, so
-- an interruption is no answer.
class Device (δ : Type) where
  take : δ → (offered : List UInt8) → δ × Except String Nat
  flush : δ → δ × Option String

structure Output (δ : Type) where
  device : δ
  taken : List UInt8
deriving DecidableEq, Repr

namespace Output

variable [Device δ]

def on (device : δ) : Output δ := ⟨device, []⟩

-- Offers the bytes, and what is left of them again, until the device took all or refused.
def writeAll (out : Output δ) : List UInt8 → Output δ × Option DeviceError
  | [] => (out, none)
  | byte :: rest =>
    match Device.take out.device (byte :: rest) with
    | (device, .error reason) => ({ out with device }, some (.failed reason))
    | (device, .ok 0) => ({ out with device }, some .tookNothing)
    | (device, .ok (count + 1)) =>
      writeAll ⟨device, out.taken ++ byte :: rest.take count⟩ (rest.drop count)
termination_by bytes => bytes.length
decreasing_by
  rw [List.length_drop, List.length_cons]
  omega

def flush (out : Output δ) : Output δ × Option DeviceError :=
  let (device, failure?) := Device.flush out.device
  ({ out with device }, failure?.map .failed)

theorem writeAll_taken (out : Output δ) (bytes : List UInt8) :
    ∃ written, written <+: bytes ∧ (out.writeAll bytes).1.taken = out.taken ++ written ∧
      ((out.writeAll bytes).2 = none → written = bytes) := by
  fun_induction writeAll out bytes with
  | case1 => exact ⟨[], List.nil_prefix, by simp, fun _ => rfl⟩
  | case2 => exact ⟨[], List.nil_prefix, by simp, by simp⟩
  | case3 => exact ⟨[], List.nil_prefix, by simp, by simp⟩
  | case4 out byte rest device count taking ih =>
    obtain ⟨written, begins, taken, whole⟩ := ih
    refine ⟨byte :: (rest.take count ++ written), ?_, by simp [taken], fun done => ?_⟩
    · have joined := (List.prefix_append_right_inj (byte :: rest.take count)).mpr begins
      rwa [List.cons_append, List.cons_append, List.take_append_drop] at joined
    · rw [whole done, List.take_append_drop]

end Output

inductive Open where
  | mk
deriving DecidableEq, Repr

instance : Device Open where
  take device offered := (device, .ok offered.length)
  flush device := (device, none)

-- A device with room for so many bytes, or for any number. Where there is no room it refuses for a
-- reason, or takes nothing and gives none.
structure Limited where
  room? : Option Nat
  refusal? : Option String
  flushFailure? : Option String
deriving DecidableEq, Repr

instance : Device Limited where
  take device offered :=
    match device.room? with
    | none => (device, .ok offered.length)
    | some 0 => (device, device.refusal?.elim (.ok 0) .error)
    | some room =>
      let fitting := min room offered.length
      ({ device with room? := some (room - fitting) }, .ok fitting)
  flush device := (device, device.flushFailure?)

end IncludeTidy
