import Muduo.EventLoop.Atomic

namespace muduo.event_loop

variable {F G H K : Type}

/-- A channel that `poll` reports, by another name of its dispatch. -/
def Ready.map (g : H → K) : Ready H → Ready K
  | .wakeupChannel => .wakeupChannel
  | .channel h => .channel (g h)

def Advance.map (g : H → K) : Advance H → Advance K
  | .enter => .enter
  | .test => .test
  | .poll activeChannels => .poll (activeChannels.map (Ready.map g))
  | .dispatch => .dispatch
  | .handled => .handled
  | .beginFunctors => .beginFunctors
  | .swap => .swap
  | .take => .take
  | .returned => .returned
  | .endFunctors => .endFunctors

def Location.view (f : F → G) (g : H → K) : Location F H → Location G K
  | .outside => .outside
  | .testing => .testing
  | .polling => .polling
  | .dispatching activeChannels => .dispatching (activeChannels.map (Ready.map g))
  | .handling h activeChannels => .handling (g h) (activeChannels.map (Ready.map g))
  | .swapping => .swapping
  | .batch functors => .batch (functors.map f)
  | .running functor functors => .running (f functor) (functors.map f)

/-- A loop's thread as somebody sees it who tells some functors and some channels apart. -/
def LoopThread.view (f : F → G) (g : H → K) (self : LoopThread F H) : LoopThread G K where
  loop := self.loop.map f
  at_ := self.at_.view f g

theorem Ready.map_eq_wakeupChannel {g : H → K} {ready : Ready H} (h : ready.map g = .wakeupChannel) :
    ready = .wakeupChannel := by
  cases ready with
  | wakeupChannel => rfl
  | channel => cases h

theorem Ready.wakeupChannel_mem_map (g : H → K) (activeChannels : List (Ready H)) :
    .wakeupChannel ∈ activeChannels.map (Ready.map g) ↔ .wakeupChannel ∈ activeChannels := by
  constructor
  · intro hmem
    obtain ⟨ready, hready, heq⟩ := List.mem_map.mp hmem
    rw [← Ready.map_eq_wakeupChannel heq]
    exact hready
  · exact fun hmem => List.mem_map.mpr ⟨_, hmem, rfl⟩

theorem Location.view_eq_outside_iff {f : F → G} {g : H → K} {at_ : Location F H} :
    at_.view f g = .outside ↔ at_ = .outside := by
  cases at_ <;> simp [Location.view]

namespace LoopThread

theorem queue_view (f : F → G) (g : H → K) (self : LoopThread F H) : (self.view f g).queue = self.queue.map f := by
  obtain ⟨loop, at_⟩ := self
  cases at_ <;> simp [queue, view, Location.view, Location.waiting, EventLoop.map]

/-- What the loop's own thread does depends on neither. -/
theorem advance_view [DecidableEq H] [DecidableEq K] (f : F → G) (g : H → K) {self next : LoopThread F H}
    {a : Advance H} (hadvance : self.advance a = some next) :
    (self.view f g).advance (a.map g) = some (next.view f g) := by
  have hadvances := advances_of_advance hadvance
  obtain ⟨loop, at_⟩ := self
  cases hadvances with
  | leave hquit => exact if_pos hquit
  | stay hquit => exact if_neg (Bool.eq_false_iff.mp hquit)
  | poll activeChannels hready =>
    exact if_pos fun hmem => hready ((Ready.wakeupChannel_mem_map g activeChannels).mp hmem)
  | enter | drain | dispatch | handled | beginFunctors | swap | take | returned | endFunctors => rfl

theorem view_queueInLoop (f : F → G) (g : H → K) (self : LoopThread F H) (isInLoopThread : Bool) (cb : F) :
    ({ self with loop := self.loop.queueInLoop isInLoopThread cb } : LoopThread F H).view f g =
      { self.view f g with loop := (self.view f g).loop.queueInLoop isInLoopThread (f cb) } := by
  simp only [view, EventLoop.map_queueInLoop]

theorem view_quit (f : F → G) (g : H → K) (self : LoopThread F H) (isInLoopThread : Bool) :
    ({ self with loop := self.loop.quit isInLoopThread } : LoopThread F H).view f g =
      { self.view f g with loop := (self.view f g).loop.quit isInLoopThread } := by
  simp only [view, EventLoop.map_quit]

end LoopThread

end muduo.event_loop
