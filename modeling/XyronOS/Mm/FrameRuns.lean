import XyronOS.Library.Runs
import XyronOS.Mm.FrameInit

/-!
# Frames handed out since boot

Runs of the frame allocator from a successful `init`, with the two allocation
functions mixed freely and every release of a frame currently held. The frames
that were free after `init` are the ones ever handed out: at each moment such a
frame is free or held, the held ones are used, and every one of them is handed out
if only enough frames are asked for. What `init` established about its free frames
is therefore true of every address returned later.

These are the frames of usable memory as far as the third pass of `init` reads the
map as it is. It reads the map again once the bitmap is in place, 32 bytes for each
entry whatever the stride, so that a map whose buffer ends where the bitmap begins
can be read into the bitmap.
-/

namespace XyronOS

open ByteMemory WordBits Runs

/-- The allocator and the addresses its callers hold. -/
structure FrameClients where
  allocator : FrameAllocator
  held : List Nat

/-- The three operations of the allocator. -/
inductive FrameRequest where
  | allocate
  | allocateBelow (limit : Nat)
  | deallocate (address : Nat)

namespace FrameClients

/-- Keep a returned address until it is released. -/
def receive (clients : FrameClients) : Option Nat × FrameAllocator → FrameClients
  | (some address, allocator) => ⟨allocator, address :: clients.held⟩
  | (none, allocator) => ⟨allocator, clients.held⟩

/-- Serve one request. -/
def serve (clients : FrameClients) : FrameRequest → FrameClients
  | .allocate => clients.receive clients.allocator.allocate
  | .allocateBelow limit => clients.receive (clients.allocator.allocateBelow limit)
  | .deallocate address =>
      match clients.allocator.deallocate address with
      | (.ok _, allocator) => ⟨allocator, clients.held.erase address⟩
      | (.error _, allocator) => ⟨allocator, clients.held⟩

/-- Only held addresses are released. -/
def Permitted (clients : FrameClients) : FrameRequest → Prop
  | .deallocate address => address ∈ clients.held
  | _ => True

instance (clients : FrameClients) (request : FrameRequest) :
    Decidable (clients.Permitted request) :=
  match request with
  | .allocate => isTrue trivial
  | .allocateBelow _ => isTrue trivial
  | .deallocate address => inferInstanceAs (Decidable (address ∈ clients.held))

/-- Free and held frames are the free frames of the start, and held ones are used. -/
structure Tracks (start : FrameAllocator) (clients : FrameClients) : Prop where
  consistent : clients.allocator.Consistent
  free : clients.allocator.freeFrames ⊆ start.freeFrames
  nodup : clients.held.Nodup
  held : ∀ address ∈ clients.held, ∃ frame ∈ start.freeFrames,
    address = PhysAddr.fromFrameNumber frame ∧ frame ∈ clients.allocator.usedFrames

/-- A used frame is not free. -/
theorem used_not_free {allocator : FrameAllocator} {frame : Nat}
    (used : frame ∈ allocator.usedFrames) : frame ∉ allocator.freeFrames := by
  rw [FrameAllocator.usedFrames_eq] at used
  exact (Finset.mem_sdiff.mp used).2

/-- The address of a free frame is not held. -/
theorem Tracks.free_not_held {start : FrameAllocator} {clients : FrameClients}
    (tracks : Tracks start clients) {frame : Nat} (free : frame ∈ clients.allocator.freeFrames) :
    PhysAddr.fromFrameNumber frame ∉ clients.held := by
  intro held
  obtain ⟨other, _, same, used⟩ := tracks.held _ held
  have sameFrame : frame = other := PhysAddr.fromFrameNumber_injective same
  subst sameFrame
  exact used_not_free used free

/-- Handing out a free frame keeps the invariant. -/
theorem Tracks.take {start : FrameAllocator} {clients : FrameClients}
    (tracks : Tracks start clients) {frame : Nat} {after : FrameAllocator}
    (takes : clients.allocator.Takes frame after) :
    Tracks start ⟨after, PhysAddr.fromFrameNumber frame :: clients.held⟩ := by
  have usedAfter := takes.usedFrames
  refine ⟨takes.consistent, ?_, ?_, ?_⟩
  · rw [takes.freeFrames]
    exact (Finset.erase_subset _ _).trans tracks.free
  · exact List.nodup_cons.mpr ⟨tracks.free_not_held takes.free, tracks.nodup⟩
  · intro address held
    simp only [usedAfter]
    rcases List.mem_cons.mp held with rfl | old
    · exact ⟨frame, tracks.free takes.free, rfl, Finset.mem_insert_self _ _⟩
    · obtain ⟨other, initial, same, used⟩ := tracks.held address old
      exact ⟨other, initial, same, Finset.mem_insert_of_mem used⟩

/-- Taking back a held frame keeps the invariant. -/
theorem Tracks.release {start : FrameAllocator} {clients : FrameClients}
    (tracks : Tracks start clients) {frame : Nat} {after : FrameAllocator}
    (initial : frame ∈ start.freeFrames) (releases : clients.allocator.Releases frame after) :
    Tracks start ⟨after, clients.held.erase (PhysAddr.fromFrameNumber frame)⟩ := by
  have usedAfter := releases.usedFrames
  refine ⟨releases.consistent, ?_, tracks.nodup.erase _, ?_⟩
  · rw [releases.freeFrames]
    exact Finset.insert_subset initial tracks.free
  · intro address still
    obtain ⟨different, old⟩ := tracks.nodup.mem_erase_iff.mp still
    obtain ⟨other, otherInitial, same, used⟩ := tracks.held address old
    refine ⟨other, otherInitial, same, ?_⟩
    rw [usedAfter, Finset.mem_erase]
    refine ⟨?_, used⟩
    rintro rfl
    exact different same

/-- Every permitted request keeps the invariant. -/
theorem Tracks.serve {start : FrameAllocator} {clients : FrameClients}
    (tracks : Tracks start clients) (request : FrameRequest)
    (permitted : clients.Permitted request) : Tracks start (clients.serve request) := by
  cases request with
  | allocate =>
    rcases FrameAllocator.allocate_cases tracks.consistent with
      ⟨frame, after, taken, _, takes⟩ | ⟨refused, _⟩
    · simp only [FrameClients.serve, taken, receive]
      exact tracks.take takes
    · simp only [FrameClients.serve, refused, receive]
      exact tracks
  | allocateBelow limit =>
    rcases FrameAllocator.allocateBelow_cases tracks.consistent limit with
      ⟨frame, after, taken, _, takes⟩ | ⟨refused, _⟩
    · simp only [FrameClients.serve, taken, receive]
      exact tracks.take takes
    · simp only [FrameClients.serve, refused, receive]
      exact tracks
  | deallocate address =>
    obtain ⟨frame, initial, rfl, used⟩ := tracks.held address permitted
    obtain ⟨after, released, releases⟩ := FrameAllocator.deallocate_used tracks.consistent used
    simp only [FrameClients.serve, released]
    exact tracks.release initial releases

end FrameClients

/-- A whole frame of usable memory that does not store the bitmap. -/
structure UsableFrame (memory : Memory) (bootInfo : BootInfo) (bitmap : Regions.Region)
    (address : Nat) : Prop where
  aligned : address % frameSize = 0
  inside : ∃ entry ∈ MemoryMapIter.entries memory bootInfo, ∃ stop, entry.Valid stop ∧
    entry.typ = efiConventionalMemory ∧ entry.physicalStart ≤ address ∧
    address + frameSize ≤ stop
  outside : Disjoint (Set.Ico address (address + frameSize)) bitmap.bytes

/-- A frame is usable memory exactly if an entry covers it and it does not store the
bitmap. -/
theorem FrameAllocator.Initialised.usable_iff {memory : Memory} {bootInfo : BootInfo}
    {allocator : FrameAllocator} {placement : Regions.Region}
    (initialised : Initialised memory bootInfo allocator placement) {frame : Nat}
    (unreserved : frame ∉ bitmapFrames placement.start placement.size) :
    UsableFrame memory bootInfo placement (PhysAddr.fromFrameNumber frame) ↔
      ∃ entry ∈ MemoryMapIter.entries memory bootInfo, Usable entry frame := by
  constructor
  · rintro ⟨-, ⟨entry, member, stop, valid, conventional, lower, upper⟩, -⟩
    exact ⟨entry, member, usable_of_inside conventional valid lower upper⟩
  · rintro ⟨entry, member, usable⟩
    obtain ⟨stop, valid, lower, upper⟩ := usable.inside
    obtain ⟨host, _, hostStop, hostValid, _, start, _, low⟩ := placement_valid initialised.placed
    obtain ⟨hostEnd, _⟩ := MemoryMapEntry.endAddr_eq hostValid.2.2
    refine ⟨Nat.mul_mod_left _ _, ⟨entry, member, stop, valid, usable.1, lower, upper⟩, ?_⟩
    apply outside_bitmap _ _ initialised.sized unreserved
    · rw [← start]
      exact hostValid.2.1
    · rw [← start]
      omega

namespace FrameClients

/-- Held addresses are distinct usable frames, and an address either function returns
next is a usable frame that is not held. -/
structure Distinct (memory : Memory) (bootInfo : BootInfo) (bitmap : Regions.Region)
    (clients : FrameClients) : Prop where
  nodup : clients.held.Nodup
  held : ∀ address ∈ clients.held, UsableFrame memory bootInfo bitmap address
  next : ∀ address after, (clients.allocator.allocate = (some address, after) ∨
      ∃ limit, clients.allocator.allocateBelow limit = (some address, after)) →
    UsableFrame memory bootInfo bitmap address ∧ address ∉ clients.held

/-- Allocation is always permitted. -/
theorem run_allocate (clients : FrameClients) (count : Nat) :
    Run Permitted serve clients (List.replicate count .allocate)
      ((List.replicate count .allocate).foldl serve clients) := by
  induction count generalizing clients with
  | zero => exact .nil clients
  | succ count inductionHypothesis => exact .cons trivial (inductionHypothesis _)

/-- Every free frame is handed out by and by. The induction is on the number of free
frames, of which each allocation takes one. -/
theorem reaches_free {frame : Nat} (count : Nat) (clients : FrameClients)
    (consistent : clients.allocator.Consistent)
    (counted : clients.allocator.freeFrames.card = count)
    (free : frame ∈ clients.allocator.freeFrames) :
    ∃ requests final after, Run Permitted serve clients requests final ∧
      final.allocator.allocate = (some (PhysAddr.fromFrameNumber frame), after) := by
  induction count generalizing clients with
  | zero =>
    rw [Finset.card_eq_zero] at counted
    rw [counted] at free
    cases free
  | succ count inductionHypothesis =>
    obtain ⟨taken, after, allocated, _, takes⟩ | ⟨_, _, empty⟩ :=
      FrameAllocator.allocate_cases consistent
    · by_cases here : frame = taken
      · subst here
        exact ⟨[], clients, after, .nil clients, allocated⟩
      · have served : clients.serve .allocate =
            ⟨after, PhysAddr.fromFrameNumber taken :: clients.held⟩ := by
          simp only [serve, allocated, receive]
        have fewer : after.freeFrames.card = count := by
          rw [takes.freeFrames, Finset.card_erase_of_mem takes.free, counted]
          rfl
        have still : frame ∈ after.freeFrames := by
          rw [takes.freeFrames]
          exact Finset.mem_erase.mpr ⟨here, free⟩
        obtain ⟨requests, final, last, run, found⟩ := inductionHypothesis
          ⟨after, PhysAddr.fromFrameNumber taken :: clients.held⟩ takes.consistent fewer still
        exact ⟨.allocate :: requests, final, last, .cons trivial (served ▸ run), found⟩
    · rw [empty] at free
      cases free

end FrameClients

/-- The third pass of `init` takes no frame for usable memory that no entry of the map
covers. -/
def SoundlyReadBack (memory : Memory) (bootInfo : BootInfo) (bitmap : Regions.Region) : Prop :=
  ∀ entry ∈ FrameAllocator.readBack memory bootInfo bitmap, ∀ frame,
    FrameAllocator.Usable entry frame →
    frame < FrameAllocator.highestAddr (MemoryMapIter.entries memory bootInfo) / frameSize →
    frame ∉ FrameAllocator.bitmapFrames bitmap.start bitmap.size →
    ∃ described ∈ MemoryMapIter.entries memory bootInfo, FrameAllocator.Usable described frame

/-- When frames never alias. After a successful `init`, every run hands out distinct
usable frames exactly if the third pass has taken no frame for usable memory that no
entry of the map covers. It has not if no byte that is read of an entry lies where the
bitmap is placed. -/
theorem frames_never_alias_iff {memory after : Memory} {bootInfo : BootInfo}
    {allocator : FrameAllocator}
    (succeeded : FrameAllocator.init memory bootInfo = (.ok allocator, after)) :
    ∃ bitmap : Regions.Region,
      (FrameAllocator.initOutcome memory bootInfo).stored =
        some (bitmap.start, allocator.bitmap) ∧
      bitmap.size = allocator.bitmap.length ∧
      ((∀ requests clients,
          Run FrameClients.Permitted FrameClients.serve ⟨allocator, []⟩ requests clients →
          clients.Distinct memory bootInfo bitmap) ↔
        SoundlyReadBack memory bootInfo bitmap) ∧
      (FrameAllocator.MapApart memory bootInfo → SoundlyReadBack memory bootInfo bitmap) := by
  obtain ⟨bitmap, initialised, _⟩ := FrameAllocator.init_ok succeeded
  refine ⟨bitmap, initialised.stored, initialised.length.symm, ⟨?_, ?_⟩, ?_⟩
  · intro distinct entry read frame usable tracked unreserved
    have free : frame ∈ allocator.freeFrames :=
      (initialised.mem_free frame).mpr
        ⟨initialised.totalFrames ▸ tracked, ⟨entry, read, usable⟩, unreserved⟩
    obtain ⟨requests, final, last, run, found⟩ :=
      FrameClients.reaches_free _ ⟨allocator, []⟩ initialised.consistent rfl free
    exact (initialised.usable_iff unreserved).mp
      ((distinct requests final run).next _ last (.inl found)).1
  · intro sound requests clients run
    have usable (frame : Nat) (free : frame ∈ allocator.freeFrames) :
        UsableFrame memory bootInfo bitmap (PhysAddr.fromFrameNumber frame) := by
      obtain ⟨tracked, ⟨entry, read, usable⟩, unreserved⟩ := (initialised.mem_free frame).mp free
      exact (initialised.usable_iff unreserved).mpr
        (sound entry read frame usable (initialised.totalFrames ▸ tracked) unreserved)
    have tracks : FrameClients.Tracks allocator clients := by
      apply run.invariant (FrameClients.Tracks allocator)
      · intro _ request holds permitted
        exact holds.serve request permitted
      · exact ⟨initialised.consistent, Finset.Subset.refl _, List.nodup_nil, by simp⟩
    refine ⟨tracks.nodup, ?_, ?_⟩
    · intro address held
      obtain ⟨frame, initial, rfl, _⟩ := tracks.held address held
      exact usable frame initial
    · intro address next returned
      obtain ⟨frame, free, rfl⟩ := tracks.consistent.returned returned
      exact ⟨usable frame (tracks.free free), tracks.free_not_held free⟩
  · intro apart entry read frame usable _ _
    rw [FrameAllocator.readBack_apart apart initialised.placed] at read
    exact ⟨entry, read, usable⟩

/-- A map of one conventional entry: eight pages from the second frame on. -/
def smallMap : Memory := fun target =>
  if target = 0x100000 then 7#8
  else if target = 0x100009 then 0x10#8
  else if target = 0x100018 then 8#8
  else 0#8

/-- The fields that describe the small map. -/
def smallMapInfo : BootInfo := ⟨0x100000, 48, 48, 1⟩

/-- Eight frames above the first: one stores the bitmap, seven are free. -/
theorem smallMap_init : (FrameAllocator.init smallMap smallMapInfo).1 =
    .ok ⟨[0x03#8, 0xFE#8], 9, 7, 0⟩ := by
  decide +kernel

theorem smallMap_placement :
    FrameAllocator.bitmapPlacement smallMap smallMapInfo = some ⟨0x1000, 2⟩ := by
  decide +kernel

theorem smallMap_apart : FrameAllocator.MapApart smallMap smallMapInfo := by
  apply FrameAllocator.mapApart_of_buffer (by decide) (by decide)
  exact FrameAllocator.bufferApart_of_placement smallMap_placement (by decide)

/-- On the small map the bitmap takes the second frame, and a run that takes two
frames and returns one holds usable ones. -/
theorem frames_never_alias_small :
    ∃ clients, Run FrameClients.Permitted FrameClients.serve
        ⟨⟨[0x03#8, 0xFE#8], 9, 7, 0⟩, []⟩
        [.allocate, .allocateBelow 0x10000, .deallocate 0x2000] clients ∧
      clients.held = [0x3000] ∧ clients.Distinct smallMap smallMapInfo ⟨0x1000, 2⟩ := by
  have run : Run FrameClients.Permitted FrameClients.serve ⟨⟨[0x03#8, 0xFE#8], 9, 7, 0⟩, []⟩
      [.allocate, .allocateBelow 0x10000, .deallocate 0x2000] _ :=
    .cons trivial (.cons trivial (.cons (by decide +kernel) (.nil _)))
  refine ⟨_, run, by decide +kernel, ?_⟩
  obtain ⟨⟨start, size⟩, stored, length, distinct, sound⟩ :=
    frames_never_alias_iff (Prod.ext smallMap_init rfl)
  have kept : (FrameAllocator.initOutcome smallMap smallMapInfo).stored =
      some (0x1000, [0x03#8, 0xFE#8]) := by
    decide +kernel
  obtain ⟨rfl, -⟩ := Prod.mk.inj (Option.some.inj (stored.symm.trans kept))
  obtain rfl : size = 2 := length
  exact distinct.mpr (sound smallMap_apart) _ _ run

/-- Two descriptors of 24 bytes in a buffer that ends at `0x1000`: seven pages of type 0 at
`0x10000`, and four conventional pages at `0x1000`. The page count of the second one is
read at `0x1000`, past the buffer. -/
def narrowMap : Memory := fun target =>
  if target = 0xFDA then 1#8
  else if target = 0xFE8 then 7#8
  else if target = 0xFF1 then 0x10#8
  else if target = 0x1000 then 4#8
  else 0#8

/-- The fields that describe the narrow map. -/
def narrowMapInfo : BootInfo := ⟨0xFD0, 48, 24, 2⟩

theorem narrowMap_placement :
    FrameAllocator.bitmapPlacement narrowMap narrowMapInfo = some ⟨0x1000, 3⟩ := by
  decide +kernel

theorem narrowMap_apart : FrameAllocator.BufferApart narrowMap narrowMapInfo :=
  FrameAllocator.bufferApart_of_placement narrowMap_placement (by decide)

/-- On the narrow map the bitmap is placed right behind the buffer, over the page count of
the second entry. The third pass then takes every frame from the second one on for usable
memory, and the fifteenth allocation returns a frame of the entry of type 0. -/
theorem frames_alias_reserved :
    FrameAllocator.BufferApart narrowMap narrowMapInfo ∧
      MemoryMapIter.entries narrowMap narrowMapInfo = [⟨0, 0x10000, 7⟩, ⟨7, 0x1000, 4⟩] ∧
      (FrameAllocator.init narrowMap narrowMapInfo).1 =
        .ok ⟨[0x03#8, 0x00#8, 0x80#8], 23, 21, 0⟩ ∧
      ∃ clients, Run FrameClients.Permitted FrameClients.serve
          ⟨⟨[0x03#8, 0x00#8, 0x80#8], 23, 21, 0⟩, []⟩ (List.replicate 15 .allocate) clients ∧
        0x10000 ∈ clients.held ∧
        ¬ UsableFrame narrowMap narrowMapInfo ⟨0x1000, 3⟩ 0x10000 := by
  have listed : MemoryMapIter.entries narrowMap narrowMapInfo =
      [⟨0, 0x10000, 7⟩, ⟨7, 0x1000, 4⟩] := by
    decide +kernel
  refine ⟨narrowMap_apart, listed, by decide +kernel, _, FrameClients.run_allocate _ 15,
    by decide +kernel, ?_⟩
  rintro ⟨-, ⟨entry, member, stop, valid, conventional, lower, upper⟩, -⟩
  rw [listed] at member
  obtain ⟨ended, -⟩ := MemoryMapEntry.endAddr_eq valid.2.2
  simp only [List.mem_cons, List.not_mem_nil, or_false] at member
  obtain rfl | rfl := member
  · cases conventional
  · simp only [frameSize] at ended upper
    omega

end XyronOS
