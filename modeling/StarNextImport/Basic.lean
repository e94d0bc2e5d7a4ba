import StarNextImport.F32
import Mathlib.Data.BitVec

/-!
# StarNextImport.Basic — the shared data model of `lib.rs`

The enums and records that the binning engine, the file-name parser and the data checks share:
`Direction` and `Directions`, the fourteen `VehicleClass`es with `VehicleClass::from_num`, the
metadata of a count, and the variants of `CountError` that the modelled functions raise.

Machine integers keep their widths: a `u8` is a `BitVec 8`, an `i32` or a `u32` a `BitVec 32`,
with the wrapping arithmetic of a release build.  An `f32` is an `F32`, with the rounding of its
literals, casts and operations.  A Rust string is its list of characters.
-/

namespace StarNextImport

/-- The direction of a lane. -/
inductive Direction where
  | north
  | east
  | south
  | west
  deriving DecidableEq, Repr

/-- The directions that a count could contain. -/
structure Directions where
  direction1 : Direction
  direction2 : Option Direction
  deriving DecidableEq, Repr

/-- Names of the 15 classifications from the FWA (there is an "Unused" class group at 14). -/
inductive VehicleClass where
  | motorcycles
  | passengerCars
  | otherFourTireSingleUnitVehicles
  | buses
  | twoAxleSixTireSingleUnitTrucks
  | threeAxleSingleUnitTrucks
  | fourOrMoreAxleSingleUnitTrucks
  | fourOrFewerAxleSingleTrailerTrucks
  | fiveAxleSingleTrailerTrucks
  | sixOrMoreAxleSingleTrailerTrucks
  | fiveOrFewerAxleMultiTrailerTrucks
  | sixAxleMultiTrailerTrucks
  | sevenOrMoreAxleMultiTrailerTrucks
  | unclassifiedVehicle
  deriving DecidableEq, Repr

/-- Identifying the problem when there's an error with a filename. -/
inductive FileNameProblem where
  | tooManyParts
  | tooFewParts
  | invalidTech
  | invalidRecordNum
  | invalidDirections
  | invalidCounterID
  | invalidSpeedLimit
  deriving DecidableEq, Repr

/-- An error of the `oracle` driver, kept as its message. -/
structure OracleError where
  message : List Char
  deriving DecidableEq, Repr

/-- The variants of `CountError` raised by the modelled functions, with their payloads.
`DataCheckError`, and the conversion from a driver error that `?` applies, are the ones
`check_data.rs` raises. -/
inductive CountError where
  | badPath (path : List Char)
  | invalidFileName (problem : FileNameProblem) (path : List Char)
  | badVehicleClass (num : BitVec 8)
  | invalidSpeed (speed : F32)
  | dataCheckError (msg : List Char)
  | oracle (err : OracleError)
  deriving DecidableEq, Repr

/-- `VehicleClass::from_num`: create a `VehicleClass` from a number. -/
def VehicleClass.fromNum (num : BitVec 8) : Except CountError VehicleClass :=
  match num.toNat with
  | 1 => .ok .motorcycles
  | 2 => .ok .passengerCars
  | 3 => .ok .otherFourTireSingleUnitVehicles
  | 4 => .ok .buses
  | 5 => .ok .twoAxleSixTireSingleUnitTrucks
  | 6 => .ok .threeAxleSingleUnitTrucks
  | 7 => .ok .fourOrMoreAxleSingleUnitTrucks
  | 8 => .ok .fourOrFewerAxleSingleTrailerTrucks
  | 9 => .ok .fiveAxleSingleTrailerTrucks
  | 10 => .ok .sixOrMoreAxleSingleTrailerTrucks
  | 11 => .ok .fiveOrFewerAxleMultiTrailerTrucks
  | 12 => .ok .sixAxleMultiTrailerTrucks
  | 13 => .ok .sevenOrMoreAxleMultiTrailerTrucks
  | 0 | 14 => .ok .unclassifiedVehicle
  | _ => .error (.badVehicleClass num)

/-- **`from_num` rejects exactly the numbers above 14**, with the number in its error. -/
theorem VehicleClass.fromNum_eq_error_iff (num : BitVec 8) (e : CountError) :
    VehicleClass.fromNum num = .error e ↔ 14 < num.toNat ∧ e = .badVehicleClass num := by
  unfold VehicleClass.fromNum
  split <;> simp_all
  exact ⟨fun h => ⟨by omega, h.symm⟩, fun h => h.2.symm⟩

/-- The metadata of a count. -/
structure CountMetadata where
  technician : List Char
  dvrpcNum : BitVec 32
  directions : Directions
  counterId : BitVec 32
  speedLimit : Option (BitVec 32)
  deriving DecidableEq, Repr

/-! ### `i32` counters read as integers -/

/-- A count below `2 ^ 31` stored in an `i32` reads back as itself. -/
theorem toInt_ofNat_of_lt {n : Nat} (h : n < 2 ^ 31) : (BitVec.ofNat 32 n).toInt = n := by
  rw [BitVec.toInt_eq_toNat_cond, BitVec.toNat_ofNat, Nat.mod_eq_of_lt (by omega)]
  simp only [show 2 * n < 2 ^ 32 by omega, if_true]

end StarNextImport
