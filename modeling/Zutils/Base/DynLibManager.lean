import Zutils.Lib.Run
import Zutils.Base.Checked
import Mathlib.Data.List.Sort
import Mathlib.Logic.Function.Basic

/-!
# Shared dynamic libraries (`base2/dyn_lib.cc`, `base2/dyn_lib_manager.cc`)

The manager has a map from names to the libraries that it has loaded, and gives a client that asks for a name the library in
the map, so that clients share it. What a client unloads is closed and deleted, whether others have it or not.

A `DynLib` is kept by its address, which is not used twice. Whether `dlopen` and `dlclose` succeed is given with each call;
after a failure the call throws, and a `DynLib` that is not deleted then stays. To use a `DynLib` that is deleted is a fault.
-/

namespace Zutils

open Lib

/-- Why a call does not come back. -/
inductive DynLibFault where
  | deleted
  /-- An exception leaves the destructor. -/
  | terminated
  deriving DecidableEq, Repr

structure DynLib where
  name : List UInt8
  /-- What `m_hInst` stands for is open. -/
  loaded : Bool
  deriving DecidableEq, Repr

structure DynLibManager where
  /-- What is not deleted, by its address. -/
  libs : ℕ → Option DynLib
  next : ℕ
  mLibList : List (List UInt8 × ℕ)

namespace DynLibManager

def new : DynLibManager := ⟨fun _ => none, 0, []⟩

variable (m : DynLibManager)

def find (filename : List UInt8) : Option ℕ := (m.mLibList.find? fun e => e.1 = filename).map Prod.snd

/-- To use `lib`. -/
def deref (libs : ℕ → Option DynLib) (lib : ℕ) : Except DynLibFault DynLib :=
  match libs lib with
  | some l => .ok l
  | none => .error .deleted

/-- `load`, whose result is `none` if it throws. -/
def load (filename : List UInt8) (opens : Bool) : DynLibManager × Option ℕ :=
  match m.find filename with
  | some lib => (m, some lib)
  | none =>
    let pLib := m.next
    let m := { m with libs := Function.update m.libs pLib (some ⟨filename, opens⟩), next := pLib + 1 }
    if opens then
      ({ m with mLibList := m.mLibList.orderedInsert (fun e e' => e.1 ≤ e'.1) (filename, pLib) }, some pLib)
    else (m, none)

/-- `unload`. If it throws, the entry is gone but not the library. -/
def unload (lib : ℕ) (closes : Bool) : Except DynLibFault DynLibManager := do
  let l ← deref m.libs lib
  let m := { m with mLibList := m.mLibList.filter fun e => e.1 ≠ l.name }
  if closes then return { m with libs := Function.update m.libs lib none } else return m

/-- The loop of the destructor: it unloads and deletes the library of the next entry. -/
def destroyEntry (closes : ℕ → Bool) (libs : ℕ → Option DynLib) (e : List UInt8 × ℕ) :
    Except DynLibFault (ℕ → Option DynLib) := do
  let _ ← deref libs e.2
  if closes e.2 then return Function.update libs e.2 none else .error .terminated

/-- `~DynLibManager`: what it leaves. -/
def destroy (closes : ℕ → Bool) : Except DynLibFault (ℕ → Option DynLib) :=
  m.mLibList.foldlM (destroyEntry closes) m.libs

end DynLibManager

/-! ### Clients -/

/-- The manager, and the library that each client has obtained and not unloaded yet. -/
structure DynLibClients (ι : Type) where
  manager : DynLibManager
  held : ι → Option ℕ

/-- What a client does. -/
inductive DynLibCall (ι : Type) where
  | load (c : ι) (filename : List UInt8) (opens : Bool)
  | unload (c : ι) (closes : Bool)

namespace DynLibClients

variable {ι : Type}

def new : DynLibClients ι := ⟨.new, fun _ => none⟩

variable [DecidableEq ι] (s : DynLibClients ι)

def call : DynLibCall ι → Except DynLibFault (DynLibClients ι)
  | .load c filename opens =>
    let (manager, lib) := s.manager.load filename opens
    .ok { manager, held := Function.update s.held c lib }
  | .unload c closes =>
    match s.held c with
    | none => .ok s
    | some lib => do
      let manager ← s.manager.unload lib closes
      return { manager, held := Function.update s.held c none }

/-- A client unloads what it has obtained, once. -/
def Valid : DynLibCall ι → Prop
  | .load c _ _ => s.held c = none
  | .unload c _ => s.held c ≠ none

/-- The runs of clients. -/
abbrev DynLibRun : List (DynLibCall ι) → DynLibClients ι → Prop :=
  Run (fun s a s' => s.Valid a ∧ s.call a = .ok s') new

end DynLibClients

end Zutils
