import BordOS.Drivers.AtaBusySafety
import BordOS.Drivers.AtaRoundTrip
import BordOS.Library.Store

namespace BordOS
open Library Prog
set_option autoImplicit true
set_option relaxedAutoImplicit false

inductive SectorCall where
  | write (drive : AtaDrive) (lba : BitVec 28) (data : Buffer)
  | read (drive : AtaDrive) (lba : BitVec 28) (buf : Buffer)

/-- The calls in a row, with the buffers that the reads return. -/
def sectorSession (fuel : Nat) (bus : BitVec 16) : List SectorCall → PortM (List Buffer)
  | [] => pure []
  | .write drive lba data :: calls => do
    ideWriteSector fuel bus drive.toByte (lba.setWidth 32) data
    sectorSession fuel bus calls
  | .read drive lba buf :: calls => do
    let buf ← ideReadSector fuel bus drive.toByte (lba.setWidth 32) buf
    let bufs ← sectorSession fuel bus calls
    return buf :: bufs

def SectorCall.op : SectorCall → StoreOp (AtaDrive × BitVec 28) Sector
  | .write drive lba data => .put (drive, lba) data.sector
  | .read drive lba _ => .get (drive, lba)

def SectorCall.buffers : List SectorCall → List Buffer
  | [] => []
  | .write _ _ _ :: calls => buffers calls
  | .read _ _ buf :: calls => buf :: buffers calls

def AtaBus.Quiet (s : AtaBus) : Prop := ∀ b, (s.drive b).busy = 0 ∧ (s.drive b).Settled

theorem AtaBus.Quiet.readyAt {s : AtaBus} (h : s.Quiet) (a : AtaDrive) :
    readyAt s.drive a = s.drive := by
  obtain ⟨hbusy, hsettled⟩ := h a
  rw [BordOS.readyAt, hsettled.ready_of_busy_eq_zero hbusy, Function.update_eq_self]

theorem AtaBus.Quiet.update {s t : AtaBus} {d : Drive} {drive : AtaDrive} (h : s.Quiet)
    (hd : d.busy = 0 ∧ d.Settled) (ht : t.drive = Function.update s.drive drive d) : t.Quiet := by
  intro b
  rw [ht]
  by_cases hb : b = drive
  · subst hb
    rw [Function.update_self]
    exact hd
  · rw [Function.update_of_ne hb]
    exact h b

/-- The bus is quiet, and its drives hold these sectors. -/
def AtaBus.Holds (f : AtaDrive × BitVec 28 → Sector) (s : AtaBus) : Prop := s.Quiet ∧ s.sectors = f

section Calls

variable {timing : AtaTiming} {bus : BitVec 16} {f : AtaDrive × BitVec 28 → Sector}

theorem ideWriteSector_holds (drive : AtaDrive) (lba : BitVec 28) (data : Buffer) :
    Spec (ataDevice timing bus) (Guarded timing bus False) (AtaBus.Holds f)
      (fun n => ideWriteSector n bus drive.toByte (lba.setWidth 32) data)
      (fun _ => AtaBus.Holds (Function.update f (drive, lba) data.sector)) := by
  apply spec_of_at
  rintro s ⟨hs, rfl⟩
  apply (ideWriteSector_spec drive (lba.setWidth 32) data False.elim).weaken (fun _ h => h)
  intro _ t ht
  have hlba : (lba.setWidth 32).setWidth 28 = lba := by simp
  have hboth : readyBoth s.drive s.regs.selected drive = s.drive := by
    rw [readyBoth, hs.readyAt, hs.readyAt]
  have hdrive := ht.drive
  rw [hboth, hlba] at hdrive
  refine ⟨hs.update ⟨rfl, ?_⟩ hdrive, sectors_stored (fun _ => rfl) hdrive⟩
  exact fun _ _ _ h => by cases h

theorem ideReadSector_holds (drive : AtaDrive) (lba : BitVec 28) (buf : Buffer) :
    Spec (ataDevice timing bus) (Guarded timing bus False) (AtaBus.Holds f)
      (fun n => ideReadSector n bus drive.toByte (lba.setWidth 32) buf)
      (fun buf' s => buf' = (f (drive, lba)).onto 256 buf ∧ s.Holds f) := by
  apply spec_of_at
  rintro s ⟨hs, rfl⟩
  apply (ideReadSector_spec drive (lba.setWidth 32) buf (hs drive).1).weaken (fun _ h => h)
  rintro buf' t ⟨hbuf, ht⟩
  have hlba : (lba.setWidth 32).setWidth 28 = lba := by simp
  have hdrive := ht.drive
  rw [hs.readyAt] at hdrive hbuf
  rw [hlba] at hbuf
  refine ⟨hbuf, hs.update ⟨rfl, ?_⟩ hdrive, ?_⟩
  · exact fun _ _ _ h => by cases h
  · funext ⟨b, l⟩
    rw [AtaBus.sectors, AtaBus.sectors, hdrive]
    by_cases hb : b = drive
    · subst hb
      rw [Function.update_self]
      rfl
    · rw [Function.update_of_ne hb]

def readBuffers (answers : List Sector) (bufs : List Buffer) : List Buffer :=
  List.zipWith (fun data buf => data.onto 256 buf) answers bufs

theorem sectorSession_holds (calls : List SectorCall) :
    Spec (ataDevice timing bus) (Guarded timing bus False) (AtaBus.Holds f)
      (fun n => sectorSession n bus calls)
      (fun bufs s => bufs = readBuffers (StoreOp.answers (calls.map SectorCall.op) f)
          (SectorCall.buffers calls) ∧
        s.Holds (StoreOp.after (calls.map SectorCall.op) f)) := by
  induction calls generalizing f with
  | nil => exact .pure fun s hs => ⟨rfl, hs⟩
  | cons c calls ih =>
    cases c with
    | write drive lba data => exact (ideWriteSector_holds drive lba data).bind fun _ => ih
    | read drive lba buf =>
      refine (ideReadSector_holds drive lba buf).bind fun buf' => .assume fun ⟨_, hbuf, _⟩ => ?_
      refine .bind (ih.weaken (fun _ h => h.2) fun _ _ h => h) fun bufs => .pure ?_
      rintro s ⟨rfl, hs⟩
      rw [hbuf]
      exact ⟨rfl, hs⟩

end Calls

theorem SectorCall.length_buffers (calls : List SectorCall) :
    (buffers calls).length = StoreOp.gets (calls.map op) := by
  induction calls with
  | nil => rfl
  | cons c calls ih =>
    cases c with
    | write drive lba data => exact ih
    | read drive lba buf => exact congrArg (· + 1) ih

theorem SectorCall.buffers_read (pre post : List SectorCall) (drive : AtaDrive) (lba : BitVec 28)
    (buf : Buffer) :
    (buffers (pre ++ .read drive lba buf :: post))[StoreOp.gets (pre.map op)]? = some buf := by
  induction pre with
  | nil => rfl
  | cons c pre ih =>
    cases c with
    | write drive lba data => exact ih
    | read drive lba buf =>
      rw [List.map_cons, op, StoreOp.gets, List.cons_append, buffers, List.getElem?_cons_succ]
      exact ih

/-- In every session of sector calls on a bus that is quiet at its start, each read returns the
sector that was written last to its address on its drive, or the one that was there at the start,
and so does each sector at the end. Each drive may be busy for any finite time at each step. No drive
reports an error on a read, so that none is logged. -/
theorem ata_sessions (timing : AtaTiming) (hclean : timing.ReadsClean) (bus : BitVec 16)
    (s : AtaBus) (hs : s.Quiet) (calls : List SectorCall) :
    (∀ n, ∀ e ∈ (sectorSession n bus calls).events (ataDevice timing bus) s, e.op.NotLog) ∧
    ∃ bufs t, Converges (ataDevice timing bus) (fun n => sectorSession n bus calls) s bufs t ∧
      bufs.length = StoreOp.gets (calls.map SectorCall.op) ∧
      (∀ pre post drive lba buf, calls = pre ++ .read drive lba buf :: post →
        bufs[StoreOp.gets (pre.map SectorCall.op)]? =
          some (((StoreOp.lastPut (drive, lba) (pre.map SectorCall.op)).getD
            (s.sectors (drive, lba))).onto 256 buf)) ∧
      ∀ p, t.sectors p =
        (StoreOp.lastPut p (calls.map SectorCall.op)).getD (s.sectors p) := by
  have hspec := @sectorSession_holds timing bus s.sectors calls
  have hstart : s.Holds s.sectors := ⟨hs, rfl⟩
  refine ⟨fun n e he => ((hspec.triple n s hstart).1 e he).2 hclean, ?_⟩
  obtain ⟨bufs, t, hrun, rfl, -, ht⟩ := hspec.post hstart
  refine ⟨_, t, hrun, ?_, ?_, ?_⟩
  · rw [readBuffers, List.length_zipWith, StoreOp.length_answers, SectorCall.length_buffers,
      Nat.min_self]
  · rintro pre post drive lba buf rfl
    have hanswer := StoreOp.answers_get (pre.map SectorCall.op) (post.map SectorCall.op)
      (drive, lba) s.sectors
    rw [readBuffers, List.getElem?_zipWith, SectorCall.buffers_read, List.map_append,
      List.map_cons, SectorCall.op, hanswer]
  · intro p
    rw [ht, StoreOp.after_eq]

theorem AtaBus.start_quiet : AtaBus.start.Quiet := fun _ => ⟨rfl, AtaBus.start_settled _⟩

def mixedCalls : List SectorCall :=
  [.write .master 7 fun _ => 1, .write .slave 7 fun _ => 2, .read .master 7 fun _ => 0,
    .write .master 7 fun _ => 3, .read .slave 7 fun _ => 0, .read .master 7 fun _ => 0]

theorem ata_sessions_mixed :
    ∃ bufs t, Converges (ataDevice (storeTiming 3) 0x1F0)
        (fun n => sectorSession n 0x1F0 mixedCalls) AtaBus.start bufs t ∧
      t.sectors (.master, 7) = Buffer.sector fun _ => 3 := by
  obtain ⟨-, bufs, t, hrun, -, -, hsectors⟩ := ata_sessions (storeTiming 3) (storeTiming_clean 3)
    0x1F0 AtaBus.start AtaBus.start_quiet mixedCalls
  refine ⟨bufs, t, hrun, ?_⟩
  rw [hsectors]
  rfl

end BordOS
