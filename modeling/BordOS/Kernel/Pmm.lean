import Mathlib.Algebra.Group.Nat.Defs
import BordOS.Kernel.Fault
import BordOS.Library.BitTable

namespace BordOS
set_option autoImplicit true
set_option relaxedAutoImplicit false

abbrev PhysAddr := BitVec 32

def pageSize : Nat := 4096

def pageSizeMask : PhysAddr := BitVec.ofNat 32 (pageSize - 1)

def nbFrames : Nat := (2 ^ 32 - 1) / pageSize + 1

def frameBitmapSize : Nat := nbFrames / 8

def isPageAligned (x : PhysAddr) : Bool := x &&& pageSizeMask == 0

def nullFrame : PhysAddr := -1

/-- The static data of the physical memory manager: one bit a frame, and the search hint. -/
structure Pmm where
  pmmBitmap : Fin frameBitmapSize → BitVec 8
  pmmNextFrame : Nat

/-- An access to `pmm_bitmap` outside the array is a fault. -/
def bitmapRead (i : Nat) : KernelM Pmm (BitVec 8) := do
  let s ← get
  if h : i < frameBitmapSize then pure (s.pmmBitmap ⟨i, h⟩) else throw (.outOfBounds i)

def bitmapWrite (i : Nat) (x : BitVec 8) : KernelM Pmm Unit := do
  if h : i < frameBitmapSize then
    modify fun s => { s with pmmBitmap := Function.update s.pmmBitmap ⟨i, h⟩ x }
  else throw (.outOfBounds i)

def pmmGetFrameNdx (addr : PhysAddr) : BitVec 32 := (addr >>> 12) / 8

def pmmGetFrameMask (addr : PhysAddr) : BitVec 32 := 1#32 <<< ((addr >>> 12) % 8).toNat

def pmmMarkAsAllocated (addr : PhysAddr) : KernelM Pmm Unit := do
  kassert (isPageAligned addr) "IS_PAGE_ALIGNED(addr)"
  let x ← bitmapRead (pmmGetFrameNdx addr).toNat
  bitmapWrite (pmmGetFrameNdx addr).toNat ((x.setWidth 32 ||| pmmGetFrameMask addr).setWidth 8)

/-- The `while (start <= end)` loop. Its address wraps at the top of the address space, so it
takes fuel. -/
def pmmMarkLoop : Nat → PhysAddr → PhysAddr → KernelM Pmm Unit
  | 0, _, _ => throw .outOfFuel
  | n + 1, start, stop => do
    if start ≤ stop then
      pmmMarkAsAllocated start
      pmmMarkLoop n (start + BitVec.ofNat 32 pageSize) stop

def pmmMarkRangeAsAllocated (fuel : Nat) (start stop : PhysAddr) : KernelM Pmm Unit := do
  kassert (isPageAligned start) "IS_PAGE_ALIGNED(start)"
  kassert (isPageAligned stop) "IS_PAGE_ALIGNED(end)"
  pmmMarkLoop fuel start stop
  modify fun s => { s with pmmNextFrame := stop.toNat }

/-- The first frame after the page that holds `KERNEL_END`, the last one that is reserved. -/
def reservedEnd (kernelEnd : PhysAddr) : PhysAddr :=
  (kernelEnd &&& ~~~pageSizeMask) + BitVec.ofNat 32 pageSize

def pmmInit (fuel : Nat) (kernelEnd : PhysAddr) : KernelM Pmm Unit := do
  set { pmmBitmap := fun _ => 0#8, pmmNextFrame := 0 : Pmm }
  pmmMarkRangeAsAllocated fuel 0 (reservedEnd kernelEnd)

/-- The inner loop over the bits of a byte, with `n = 7 - j` tests left: bit 7 is never tested. -/
def pmmScanByte (x : BitVec 8) : Nat → Nat → Nat
  | 0, j => j
  | n + 1, j => if x.setWidth 32 &&& 1#32 <<< j ≠ 0 then pmmScanByte x n (j + 1) else j

/-- The search of `pmm_alloc_frame`, with `n = final - i` bytes left: the first byte that is not
full and the bit chosen in it. -/
def pmmSearch : Nat → Nat → KernelM Pmm (Option (Nat × Nat))
  | 0, _ => pure none
  | n + 1, i => do
    let x ← bitmapRead i
    if x ≠ 0xFF#8 then pure (some (i, pmmScanByte x 7 0)) else pmmSearch n (i + 1)

def pmmAllocFrame (i final : Nat) : KernelM Pmm PhysAddr := do
  match ← pmmSearch (final - i) i with
  | none => pure nullFrame
  | some (i, j) =>
    let x ← bitmapRead i
    bitmapWrite i ((x.setWidth 32 ||| 1#32 <<< j).setWidth 8)
    modify fun s => { s with pmmNextFrame := i }
    pure (BitVec.ofNat 32 (pageSize * (i * 8 + j)))

def pmmAlloc : KernelM Pmm PhysAddr := do
  let s ← get
  let frame ← pmmAllocFrame s.pmmNextFrame frameBitmapSize
  if frame = nullFrame then
    let s ← get
    pmmAllocFrame 0 s.pmmNextFrame
  else pure frame

def pmmIsFrameAllocated (frame : PhysAddr) : KernelM Pmm Bool := do
  kassert (isPageAligned frame) "IS_PAGE_ALIGNED(frame)"
  let x ← bitmapRead (pmmGetFrameNdx frame).toNat
  pure (x.setWidth 32 &&& pmmGetFrameMask frame ≠ 0)

def pmmFree (frame : PhysAddr) : KernelM Pmm Unit := do
  kassert (isPageAligned frame) "IS_PAGE_ALIGNED(frame)"
  kassert (← pmmIsFrameAllocated frame) "pmm_is_frame_allocated(frame)"
  let x ← bitmapRead (pmmGetFrameNdx frame).toNat
  bitmapWrite (pmmGetFrameNdx frame).toNat ((x.setWidth 32 &&& ~~~pmmGetFrameMask frame).setWidth 8)
  modify fun s => { s with pmmNextFrame := (pmmGetFrameNdx frame).toNat }

end BordOS
