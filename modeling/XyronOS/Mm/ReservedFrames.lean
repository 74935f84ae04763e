import XyronOS.Mm.FrameSet

/-!
# Frames that are only reserved

A set bit of the bitmap means that a frame is not free. It says nothing about the
reason: the frame may have been handed out, or `init` may have left it used because it
stores the bitmap or because no usable entry covers it. `deallocate` asks for the bit
alone, so it also accepts a frame that nobody holds.

A ledger of the frames handed out stands beside the allocator. As long as no release
names a frame that `init` left used, the free frames are those of the start without the
held ones; then exactly the held frames can be released, and the frames that `init` left
used are never handed out. In such a state the next release breaks this exactly if it
names one of them.
-/

namespace XyronOS

open ByteMemory WordBits Runs

/-- The allocator and the frames that were handed out and not freed since. -/
structure FrameLedger where
  allocator : FrameAllocator
  held : Finset Nat

namespace FrameLedger

/-- Enter a reply: a returned frame is held, a released one no longer is. -/
def record (held : Finset Nat) : FrameRequest → FrameReply → Finset Nat
  | _, .allocated (some address) => insert (PhysAddr.frameNumber address) held
  | .deallocate address, .deallocated (.ok _) => held.erase (PhysAddr.frameNumber address)
  | _, _ => held

/-- Serve any request, with any argument. -/
def serve (ledger : FrameLedger) (request : FrameRequest) : FrameLedger :=
  ⟨(ledger.allocator.answer request).2,
    record ledger.held request (ledger.allocator.answer request).1⟩

/-- A request that does not release a frame which was used at the start. -/
def Unreserved (start : FrameAllocator) (_ : FrameLedger) : FrameRequest → Prop
  | .deallocate address => PhysAddr.frameNumber address ∉ start.usedFrames
  | _ => True

instance (start : FrameAllocator) (ledger : FrameLedger) (request : FrameRequest) :
    Decidable (Unreserved start ledger request) :=
  match request with
  | .allocate => isTrue trivial
  | .allocateBelow _ => isTrue trivial
  | .deallocate address =>
      inferInstanceAs (Decidable (PhysAddr.frameNumber address ∉ start.usedFrames))

/-- A release of an address whose frame is not held is refused and changes nothing. -/
def Refuses (ledger : FrameLedger) (address : Nat) : Prop :=
  PhysAddr.frameNumber address ∉ ledger.held →
    ∃ error, ledger.allocator.deallocate address = (.error error, ledger.allocator)

/-- The free frames are those of the start without the held ones. -/
structure Accounts (start : FrameAllocator) (ledger : FrameLedger) : Prop where
  sound : ledger.allocator.Sound
  total : ledger.allocator.totalFrames = start.totalFrames
  held : ledger.held ⊆ start.freeFrames
  free : ledger.allocator.freeFrames = start.freeFrames \ ledger.held

section Account

variable {start : FrameAllocator} {ledger : FrameLedger} (accounts : Accounts start ledger)

include accounts

/-- A free frame of the start that is not held is free. -/
theorem Accounts.mem_free (frame : Nat) :
    frame ∈ ledger.allocator.freeFrames ↔ frame ∈ start.freeFrames ∧ frame ∉ ledger.held := by
  rw [accounts.free, Finset.mem_sdiff]

/-- Handing out a free frame. -/
theorem Accounts.take {after : FrameAllocator} {frame : Nat} (sound : after.Sound)
    (total : after.totalFrames = ledger.allocator.totalFrames)
    (free : frame ∈ ledger.allocator.freeFrames)
    (taken : after.freeFrames = ledger.allocator.freeFrames.erase frame) :
    Accounts start ⟨after, insert frame ledger.held⟩ := by
  refine ⟨sound, total.trans accounts.total, ?_, ?_⟩
  · exact Finset.insert_subset ((accounts.mem_free frame).mp free).1 accounts.held
  · rw [taken, accounts.free]
    ext other
    simp only [Finset.mem_erase, Finset.mem_sdiff, Finset.mem_insert]
    tauto

/-- Taking back a used frame that was free at the start. -/
theorem Accounts.release {after : FrameAllocator} {frame : Nat} (sound : after.Sound)
    (total : after.totalFrames = ledger.allocator.totalFrames)
    (initial : frame ∈ start.freeFrames)
    (released : after.freeFrames = insert frame ledger.allocator.freeFrames) :
    Accounts start ⟨after, ledger.held.erase frame⟩ := by
  refine ⟨sound, total.trans accounts.total, (Finset.erase_subset _ _).trans accounts.held, ?_⟩
  rw [released, accounts.free]
  ext other
  simp only [Finset.mem_erase, Finset.mem_sdiff, Finset.mem_insert]
  by_cases same : other = frame
  · simp [same, initial]
  · tauto

/-- An answer that leaves the free frames as they were. -/
theorem Accounts.keep {after : FrameAllocator} (sound : after.Sound)
    (same : after.frameSet = ledger.allocator.frameSet) :
    Accounts start ⟨after, ledger.held⟩ :=
  ⟨sound, (congrArg FrameSet.total same).trans accounts.total, accounts.held,
    (congrArg FrameSet.free same).trans accounts.free⟩

/-- Every admitted request keeps the account. The cases are the steps of the set
machine. -/
theorem Accounts.serve (request : FrameRequest) (unreserved : Unreserved start ledger request) :
    Accounts start (ledger.serve request) := by
  obtain ⟨sound, step⟩ := accounts.sound.answer_step request
  rw [FrameLedger.serve]
  generalize ledger.allocator.answer request = outcome at sound step ⊢
  obtain ⟨reply, after⟩ := outcome
  simp only at sound step ⊢
  generalize next : after.frameSet = frames at step
  cases step with
  | exhausted empty => exact accounts.keep sound next
  | allocate frame free first =>
    simp only [record, PhysAddr.frameNumber_fromFrameNumber]
    exact accounts.take sound (congrArg FrameSet.total next) free (congrArg FrameSet.free next)
  | noneBelow limit empty => exact accounts.keep sound next
  | allocateBelow limit frame free lowest below =>
    simp only [record, PhysAddr.frameNumber_fromFrameNumber]
    exact accounts.take sound (congrArg FrameSet.total next) free (congrArg FrameSet.free next)
  | outOfRange address outside => exact accounts.keep sound next
  | doubleFree address free => exact accounts.keep sound next
  | deallocate address tracked used =>
    have initial : PhysAddr.frameNumber address ∈ start.freeFrames := by
      have known : PhysAddr.frameNumber address < start.totalFrames := by
        rw [← accounts.total]
        exact tracked
      by_contra absent
      apply unreserved
      rw [FrameAllocator.usedFrames_eq, Finset.mem_sdiff, Finset.mem_range]
      exact ⟨known, absent⟩
    exact accounts.release sound (congrArg FrameSet.total next) initial
      (congrArg FrameSet.free next)

/-- Where the account is kept, a release is refused unless its frame is held, exactly if
its frame was not used at the start. -/
theorem Accounts.refuses_iff (address : Nat) :
    ledger.Refuses address ↔ PhysAddr.frameNumber address ∉ start.usedFrames := by
  have held := @accounts.held (PhysAddr.frameNumber address)
  rw [Refuses, FrameAllocator.deallocate_refused_iff, FrameAllocator.usedFrames_eq,
    FrameAllocator.usedFrames_eq, accounts.total, Finset.mem_sdiff, Finset.mem_sdiff,
    accounts.mem_free]
  tauto

/-- Where the account is kept, only frames that were free at the start are handed out. -/
theorem Accounts.returned {address : Nat} {after : FrameAllocator}
    (returned : ledger.allocator.allocate = (some address, after) ∨
      ∃ limit, ledger.allocator.allocateBelow limit = (some address, after)) :
    PhysAddr.frameNumber address ∉ start.usedFrames := by
  obtain ⟨frame, free, rfl⟩ := accounts.sound.consistent.returned returned
  rw [PhysAddr.frameNumber_fromFrameNumber, FrameAllocator.usedFrames_eq, Finset.mem_sdiff]
  exact fun reserved => reserved.2 ((accounts.mem_free frame).mp free).1

end Account

end FrameLedger

/-- Which releases are caught. After any run from a successful `init` in which no release
names a frame that `init` left used, the next release of an address is refused without
effect unless its frame is held, exactly if its frame is not one that `init` left used.
No frame that `init` left used is held or handed out next. -/
theorem frees_only_held_iff {memory after : Memory} {bootInfo : BootInfo}
    {allocator : FrameAllocator}
    (succeeded : FrameAllocator.init memory bootInfo = (.ok allocator, after))
    {requests : List FrameRequest} {ledger : FrameLedger}
    (run : Run (FrameLedger.Unreserved allocator) FrameLedger.serve ⟨allocator, ∅⟩ requests
      ledger) :
    (∀ address, ledger.Refuses address ↔
        PhysAddr.frameNumber address ∉ allocator.usedFrames) ∧
      (∀ frame ∈ ledger.held, frame ∉ allocator.usedFrames) ∧
      ∀ address next, (ledger.allocator.allocate = (some address, next) ∨
          ∃ limit, ledger.allocator.allocateBelow limit = (some address, next)) →
        PhysAddr.frameNumber address ∉ allocator.usedFrames := by
  have accounts : FrameLedger.Accounts allocator ledger := by
    apply run.invariant (FrameLedger.Accounts allocator)
    · intro _ request holds unreserved
      exact holds.serve request unreserved
    · exact ⟨FrameAllocator.init_sound succeeded, rfl, Finset.empty_subset _, by simp⟩
  refine ⟨accounts.refuses_iff, ?_, fun address next returned => accounts.returned returned⟩
  intro frame held reserved
  rw [FrameAllocator.usedFrames_eq, Finset.mem_sdiff] at reserved
  exact reserved.2 (accounts.held held)

/-- On the small map, after a frame was taken, given back and given back again, the release
of another free frame is refused. -/
theorem frees_only_held_small :
    ∃ ledger, Run (FrameLedger.Unreserved ⟨[0x03#8, 0xFE#8], 9, 7, 0⟩) FrameLedger.serve
        ⟨⟨[0x03#8, 0xFE#8], 9, 7, 0⟩, ∅⟩ [.allocate, .deallocate 0x2000, .deallocate 0x2000]
        ledger ∧
      ledger.Refuses 0x3000 := by
  have run : Run (FrameLedger.Unreserved ⟨[0x03#8, 0xFE#8], 9, 7, 0⟩) FrameLedger.serve
      ⟨⟨[0x03#8, 0xFE#8], 9, 7, 0⟩, ∅⟩ [.allocate, .deallocate 0x2000, .deallocate 0x2000] _ :=
    .cons trivial (.cons (by decide +kernel) (.cons (by decide +kernel) (.nil _)))
  exact ⟨_, run, ((frees_only_held_iff (Prod.ext smallMap_init rfl) run).1 _).mpr
    (by decide +kernel)⟩

/-- On the small map the frame that stores the bitmap is released without being held, and
then handed out. -/
theorem frees_bitmap_frame :
    (FrameAllocator.init smallMap smallMapInfo).1 = .ok ⟨[0x03#8, 0xFE#8], 9, 7, 0⟩ ∧
      FrameAllocator.bitmapPlacement smallMap smallMapInfo = some ⟨0x1000, 2⟩ ∧
      ¬ FrameLedger.Refuses ⟨⟨[0x03#8, 0xFE#8], 9, 7, 0⟩, ∅⟩ 0x1000 ∧
      (FrameAllocator.allocate
        (FrameAllocator.deallocate ⟨[0x03#8, 0xFE#8], 9, 7, 0⟩ 0x1000).2).1 = some 0x1000 := by
  refine ⟨smallMap_init, smallMap_placement, ?_, by decide +kernel⟩
  rw [FrameLedger.Refuses, FrameAllocator.deallocate_refused_iff]
  decide +kernel

end XyronOS
