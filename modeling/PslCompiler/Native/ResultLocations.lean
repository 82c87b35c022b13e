import PslCompiler.Native.ArgumentPassing

/-! # Results and registers in the backends

Where each backend puts the pieces of a result, and which register of the machine stands for an
argument register: by its number in instructions. Stack slots are eight bytes each, from the first
stack argument on.
-/

namespace Native

open Stage0 Calling

/-! ## Argument registers -/

/-- The register that a move of an argument writes: rdi, rsi, rdx, rcx, r8 and r9. -/
def x86LirMoveArgumentGp (index : Nat) : Nat :=
  if index = 0 then 7
  else if index = 1 then 6
  else if index = 2 then 2
  else if index = 3 then 1
  else if index = 4 then 8
  else 9

/-- The register of an argument by its number from one: rcx, rdx, r8 and r9. -/
def win64RegisterArgument (index : Nat) : Nat :=
  if index = 1 then 1
  else if index = 2 then 2
  else if index = 3 then 8
  else 9

/-- The general registers of RISC-V for arguments start at x10, the floating-point ones at f10. -/
def rvArgumentRegister (index : Nat) : Nat :=
  10 + index

namespace AbiTarget

/-- The register, or the bytes on the stack, that a place stands for. -/
def machinePlace : AbiTarget → Place → Place
  | systemV, .general index => .general (x86LirMoveArgumentGp index)
  | microsoft, .general index => .general (win64RegisterArgument (index + 1))
  | lp64d, .general index => .general (rvArgumentRegister index)
  | lp64d, .floating index => .floating (rvArgumentRegister index)
  | _, .stack slot => .stack (8 * slot)
  | _, place => place

end AbiTarget

/-! ## Results -/

section Results

variable (tables : LayoutContext)

/-- The words of a record are in rax and rdx, and in the first floating-point registers. -/
def x86AggregateReceiveResult (type : Ty) : List Place :=
  (List.range (nativeAggregateWords tables.layouts type)).map fun part =>
    let kind := x86AggregateClass tables type part
    let index := x86AggregateClassCount tables type kind part
    if kind = 1 then .general (if index = 0 then 0 else 2) else .floating index

def a64AggregateCallResult (type : Ty) : List Place :=
  if 0 < nativeAggregateHfaCode tables type then
    (List.range (aggregateLeaves tables type).length).map .floating
  else if nativeAggregateWords tables.layouts type = 2 then [.general 0, .general 1]
  else [.general 0]

def rvAggregateCallResult (type : Ty) : List Place :=
  if rvAggregateSpecialP tables type then
    (rvAggregateFields tables type (nativeAbiLocation 5 0)).map AbiTarget.lp64d.machinePlace
  else if nativeAggregateWords tables.layouts type = 2 then [.general 10, .general 11]
  else [.general 10]

/-- A result that is not a record: none for code 12. -/
def scalarResult (code : Nat) (floating general : Place) : List Place :=
  if code = 12 then [] else if nativeAbiFloatP code then [floating] else [general]

/-- The places of the pieces of a result; rax holds a small record or the address of the record on
Windows. -/
def AbiTarget.resultPlaces (type : Ty) : AbiTarget → List Place
  | systemV =>
      if scalarTypeCode tables.layouts type = 16 then x86AggregateReceiveResult tables type
      else scalarResult (scalarTypeCode tables.layouts type) (.floating 0) (.general 0)
  | aapcs64 =>
      if scalarTypeCode tables.layouts type = 16 then a64AggregateCallResult tables type
      else scalarResult (scalarTypeCode tables.layouts type) (.floating 0) (.general 0)
  | lp64d =>
      if scalarTypeCode tables.layouts type = 16 then rvAggregateCallResult tables type
      else scalarResult (scalarTypeCode tables.layouts type) (.floating 10) (.general 10)
  | microsoft => scalarResult (scalarTypeCode tables.layouts type) (.floating 0) (.general 0)

end Results

end Native
