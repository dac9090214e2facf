import Mathlib.Data.List.Nodup
import Watchtower.Contract.Creation
import Watchtower.Proofs.Scanning

/-!
# No game is lost

The factory lists games as it creates them, one after another, and each is announced to whoever has
subscribed by then. Between any two answers that the search gets, any number of games may be
created.

* `Scene`, `scene.Step scene'` : the list, the subscription and the search; a game is created, or
  the search gets an answer. No read fails, and every event waits until it is delivered;
* `Reaches factory gameType window n scene` : from the opening on, for `n` events at most;
* `ScanOver`, `AtRest`, `Proceeds` : what the search is to do next, read off what it has asked;
* `Scanned`, `Followed` : what the search has read and welcomed, while it reads the list and after
  that; `Stage` : how far it has come. It does what it is to do next (`Stage.proceeds`), and
  whatever it asks has an answer (`Stage.answerable`);
* `no_game_lost` : every game of the type that is recent or created after the subscription is
  welcomed, at most twice, and no other is.
-/

namespace Watchtower

open Program Discovery

section
variable {factory : Address} {gameType : UInt32} {window : UInt64} {n : Nat}
  {listed delivered : List Listing} {l : Listing}

/-! ## The factory, the subscription and the search -/

structure Subscription where
  gameType : UInt32
  /-- How many games were listed when it began. -/
  first : Nat
  /-- The games whose events are still to be delivered. -/
  pending : List Listing

/-- A game is announced to those who have subscribed to its type. -/
def Subscription.announce (s : Subscription) (l : Listing) : Subscription :=
  if l.gameType = s.gameType then { s with pending := s.pending ++ [l] } else s

structure Scene where
  listed : List Listing
  subscription : Option Subscription
  /-- What the search has asked. -/
  log : List (Exchange Discovery)
  rest : Program Discovery (Except Fault Unit)

/-- The answers of the factory and of the node, and the subscription after them. -/
inductive Answers (factory : Address) (listed : List Listing) :
    Option Subscription → (q : Discovery.Ask) → Discovery.Reply q → Option Subscription → Prop
  | subscribe (s : Option Subscription) (gameType : UInt32) :
      Answers factory listed s (.subscribe gameType) (.ok ()) (some ⟨gameType, listed.length, []⟩)
  | now (s : Option Subscription) (now : UInt64) : Answers factory listed s .now now s
  | gameCount (s : Option Subscription) :
      Answers factory listed s .gameCount (.ok listed.length) s
  | gameAt (s : Option Subscription) {index : Nat} {l : Listing} (h : listed[index]? = some l) :
      Answers factory listed s (.gameAt index) (.ok l) s
  | nextEvent {s : Subscription} {l : Listing} {later : List Listing} {event : L1.Event}
      (h : s.pending = l :: later) (hevent : Contract.isCreation factory l.game event = true) :
      Answers factory listed (some s) .nextEvent (some event) (some { s with pending := later })
  /-- The signal to stop has been given. -/
  | stop (s : Option Subscription) : Answers factory listed s .nextEvent none s
  | welcome (s : Option Subscription) (origin : Discovery.Origin) (game : Address) :
      Answers factory listed s (.welcome origin game) () s
  | notify (s : Option Subscription) (notice : Notice) :
      Answers factory listed s (.notify notice) () s

namespace Scene

inductive Step (factory : Address) (scene : Scene) : Scene → Prop
  | create (l : Listing) (hlast : ∀ m ∈ scene.listed, m.createdAt ≤ l.createdAt) :
      Step factory scene { scene with
        listed := scene.listed ++ [l]
        subscription := scene.subscription.map (·.announce l) }
  | answer {q : Discovery.Ask} {next : Discovery.Reply q → Program Discovery (Except Fault Unit)}
      {reply : Discovery.Reply q} {s : Option Subscription} (hrest : scene.rest = .ask q next)
      (h : Answers factory scene.listed scene.subscription q reply s) :
      Step factory scene { scene with
        subscription := s
        log := scene.log ++ [⟨q, reply⟩]
        rest := next reply }

inductive Reaches (factory : Address) (gameType : UInt32) (window : UInt64) (n : Nat) : Scene → Prop
  | opening {listed : List Listing} (h : Chronological listed) :
      Reaches factory gameType window n ⟨listed, none, [], (discover gameType window n).run⟩
  | step {scene scene' : Scene} (h : Reaches factory gameType window n scene)
      (hstep : scene.Step factory scene') : Reaches factory gameType window n scene'

end Scene

/-! ## What the search has done -/

namespace Discovery

/-- A listed game, as found in one way or the other. -/
def Origin.tag (origin : Origin) (l : Listing) : Origin × Address := (origin, l.game)

/-- Games of the list, and after them games of events. -/
def finds (scanned followed : List Listing) : List (Origin × Address) :=
  scanned.map Origin.listed.tag ++ followed.map Origin.announced.tag

theorem finds_nil (scanned : List Listing) : finds scanned [] = scanned.map Origin.listed.tag :=
  List.append_nil _

theorem finds_snoc (scanned followed : List Listing) (l : Listing) :
    finds scanned (followed ++ [l]) = finds scanned followed ++ [(.announced, l.game)] := by
  rw [finds, List.map_append, ← List.append_assoc]
  rfl

theorem mem_finds_iff {scanned followed : List Listing} {origin : Origin} {game : Address} :
    (origin, game) ∈ finds scanned followed ↔
      (origin = .listed ∧ game ∈ scanned.map Listing.game) ∨
        (origin = .announced ∧ game ∈ followed.map Listing.game) := by
  simp only [finds, Origin.tag, List.mem_append, List.mem_map, Prod.mk.injEq, eq_comm,
    exists_and_left, and_left_comm]

theorem count_tag (origin origin' : Origin) (ls : List Listing) (game : Address) :
    (ls.map origin.tag).count (origin', game) =
      if origin = origin' then (ls.map Listing.game).count game else 0 := by
  split
  · next hsame =>
    simp only [List.count, List.countP_map]
    exact List.countP_congr fun l _ => by simp [Origin.tag, hsame]
  · next hother =>
    refine List.count_eq_zero.mpr fun hmem => ?_
    obtain ⟨l, -, heq⟩ := List.mem_map.mp hmem
    exact hother (Prod.mk.inj heq).1

/-- In either way a game is found as often as it is there to be found. -/
theorem count_finds (scanned followed : List Listing) (origin : Origin) (game : Address) :
    (finds scanned followed).count (origin, game) = match origin with
      | .listed => (scanned.map Listing.game).count game
      | .announced => (followed.map Listing.game).count game := by
  rw [finds, List.count_append, count_tag, count_tag]
  cases origin with
  | listed => exact Nat.add_zero _
  | announced => exact Nat.zero_add _

def welcomed (trace : List (Exchange Discovery)) : List (Origin × Address) :=
  trace.filterMap fun
    | ⟨.welcome origin game, _⟩ => some (origin, game)
    | _ => none

/-- The places in the list that were read. -/
def reads (trace : List (Exchange Discovery)) : List Nat :=
  trace.filterMap fun
    | ⟨.gameAt index, _⟩ => some index
    | _ => none

/-- The events that were delivered. -/
def taken (trace : List (Exchange Discovery)) : List L1.Event :=
  trace.filterMap fun
    | ⟨.nextEvent, some event⟩ => some event
    | _ => none

/-- The games to welcome that the list and the events have told of. -/
def found (gameType : UInt32) (earliest : UInt64) (trace : List (Exchange Discovery)) :
    List (Origin × Address) :=
  trace.filterMap fun
    | ⟨.gameAt _, .ok l⟩ =>
      if l.gameType = gameType ∧ earliest ≤ l.createdAt then some (.listed, l.game) else none
    | ⟨.nextEvent, some event⟩ => (announced? event).map fun game => (.announced, game)
    | _ => none

/-- Of the first `count` games all have been read, or one that is too old. -/
def ScanOver (earliest : UInt64) (count : Nat) (trace : List (Exchange Discovery)) : Prop :=
  (reads trace).length = count ∨
    ∃ index l, ⟨.gameAt index, .ok l⟩ ∈ trace ∧ l.createdAt < earliest

/-- Of `n` events, the search waits for the next, has taken all, or has been stopped. -/
inductive AtRest (n : Nat) (trace : List (Exchange Discovery)) :
    Program Discovery (Except Fault Unit) → Prop
  | waiting (next : Option L1.Event → Program Discovery (Except Fault Unit))
      (h : (taken trace).length < n) : AtRest n trace (.ask .nextEvent next)
  | spent (h : (taken trace).length = n) : AtRest n trace .stuck
  | stopped (h : trace.getLast? = some ⟨.nextEvent, none⟩) : AtRest n trace (.done (.ok ()))

/-- What the search is to do next, after what it has asked since it counted the games. A game that
was found is welcomed at once; the list is read from the newest game down until the scan is over;
and when nothing is left to be done, the search is at rest. -/
inductive Proceeds (gameType : UInt32) (earliest : UInt64) (n count : Nat)
    (trace : List (Exchange Discovery)) : Program Discovery (Except Fault Unit) → Prop
  | welcome {origin : Origin} {game : Address}
      (next : Unit → Program Discovery (Except Fault Unit))
      (h : found gameType earliest trace = welcomed trace ++ [(origin, game)]) :
      Proceeds gameType earliest n count trace (.ask (.welcome origin game) next)
  | read {index : Nat} (next : Except Fault Listing → Program Discovery (Except Fault Unit))
      (hfound : found gameType earliest trace = welcomed trace)
      (hscan : ¬ ScanOver earliest count trace)
      (hindex : reads trace ++ (List.range (index + 1)).reverse = (List.range count).reverse) :
      Proceeds gameType earliest n count trace (.ask (.gameAt index) next)
  | rest {rest : Program Discovery (Except Fault Unit)}
      (hfound : found gameType earliest trace = welcomed trace)
      (hscan : ScanOver earliest count trace) (h : AtRest n trace rest) :
      Proceeds gameType earliest n count trace rest

theorem welcomed_append (first second : List (Exchange Discovery)) :
    welcomed (first ++ second) = welcomed first ++ welcomed second :=
  List.filterMap_append

theorem reads_append (first second : List (Exchange Discovery)) :
    reads (first ++ second) = reads first ++ reads second :=
  List.filterMap_append

theorem taken_append (first second : List (Exchange Discovery)) :
    taken (first ++ second) = taken first ++ taken second :=
  List.filterMap_append

theorem found_append (gameType : UInt32) (earliest : UInt64)
    (first second : List (Exchange Discovery)) : found gameType earliest (first ++ second) =
      found gameType earliest first ++ found gameType earliest second :=
  List.filterMap_append

theorem ScanOver.append {earliest : UInt64} {count : Nat} {trace : List (Exchange Discovery)}
    (h : ScanOver earliest count trace) {later : List (Exchange Discovery)}
    (hlater : reads later = []) : ScanOver earliest count (trace ++ later) := by
  obtain hall | ⟨index, l, hread, hold⟩ := h
  · exact .inl (by rw [reads_append, hlater, List.append_nil, hall])
  · exact .inr ⟨index, l, List.mem_append_left _ hread, hold⟩

theorem announced_of_isCreation {event : L1.Event} {game : Address}
    (h : Contract.isCreation factory game event = true) : announced? event = some game := by
  unfold Contract.isCreation at h
  have htopic := of_decide_eq_true (Bool.and_eq_true _ _ ▸ h).2
  rw [announced?, htopic, Option.map_some, Address.ofWord_padded]

end Discovery

/-- The events of the subscription are those of the fresh games; some have been delivered. -/
structure Subscription.Covers (s : Subscription) (gameType : UInt32) (listed : List Listing)
    (delivered : List Listing) : Prop where
  type : s.gameType = gameType
  first : s.first ≤ listed.length
  events : delivered ++ s.pending = fresh gameType listed s.first

theorem Subscription.Covers.announce {s : Subscription}
    (h : s.Covers gameType listed delivered) (l : Listing) :
    (s.announce l).Covers gameType (listed ++ [l]) delivered ∧ (s.announce l).first = s.first := by
  obtain ⟨rfl, hfirst, hevents⟩ := h
  have hfresh : fresh s.gameType (listed ++ [l]) s.first =
      fresh s.gameType listed s.first ++ [l].filter (·.gameType = s.gameType) := by
    unfold fresh
    rw [List.drop_append_of_le_length hfirst, List.filter_append]
  have hlength : s.first ≤ (listed ++ [l]).length :=
    Nat.le_trans hfirst (List.prefix_append listed [l]).length_le
  unfold announce
  split
  · next htype =>
    refine ⟨⟨rfl, hlength, ?_⟩, rfl⟩
    rw [hfresh, ← hevents, List.append_assoc, List.filter_singleton, decide_eq_true htype]
    rfl
  · next htype =>
    refine ⟨⟨rfl, hlength, ?_⟩, rfl⟩
    rw [hfresh, ← hevents, List.filter_singleton, decide_eq_false htype]
    exact (List.append_nil _).symm

/-- What the search asks first. -/
def opened (gameType : UInt32) (now : UInt64) (count : Nat) : List (Exchange Discovery) :=
  [⟨.subscribe gameType, .ok ()⟩, ⟨.now, now⟩, ⟨.gameCount, .ok count⟩]

/-- The search when it counts the games. -/
def counting (gameType : UInt32) (window : UInt64) (n : Nat) (now : UInt64) :
    Program Discovery (Except Fault Unit) :=
  .ask .gameCount fun
    | .error fault => .done (.error fault)
    | .ok count => looking gameType (satSub now window) n count

/-- The scan of the first `count` games has come down to an index. A game in hand has been read and
is still to be welcomed. -/
structure Scanned (gameType : UInt32) (earliest : UInt64) (listed : List Listing) (s : Subscription)
    (count index : Nat) (scanned : List Listing) (hand : Option Listing)
    (more : List (Exchange Discovery)) : Prop where
  covers : s.Covers gameType listed []
  first_le : s.first ≤ count
  count_le : count ≤ listed.length
  index_le : index ≤ count
  reads_eq : reads more ++ (List.range index).reverse = (List.range count).reverse
  young : ∀ index l, ⟨.gameAt index, .ok l⟩ ∈ more → ¬ l.createdAt < earliest
  taken_eq : taken more = []
  found_eq : found gameType earliest more = (scanned ++ hand.toList).map Origin.listed.tag
  welcomed_eq : welcomed more = scanned.map Origin.listed.tag
  recent_eq : scanned ++ (hand.toList ++ recent gameType earliest listed index) =
    recent gameType earliest listed count

/-- The scan is over, and the events of some games have been dealt with. The event of a game in hand
has been delivered, and the game is still to be welcomed. -/
structure Followed (gameType : UInt32) (earliest : UInt64) (listed : List Listing)
    (s : Subscription) (count : Nat) (followed : List Listing) (hand : Option Listing)
    (more : List (Exchange Discovery)) : Prop where
  covers : s.Covers gameType listed (followed ++ hand.toList)
  first_le : s.first ≤ count
  count_le : count ≤ listed.length
  reads_le : reads more <+: (List.range count).reverse
  scan_over : ScanOver earliest count more
  taken_length : (taken more).length = (followed ++ hand.toList).length
  found_eq : found gameType earliest more =
    finds (recent gameType earliest listed count) (followed ++ hand.toList)
  welcomed_eq : welcomed more = finds (recent gameType earliest listed count) followed

inductive Stage (gameType : UInt32) (window : UInt64) (n : Nat) (listed : List Listing) :
    Option Subscription → List (Exchange Discovery) → Program Discovery (Except Fault Unit) → Prop
  | opening : Stage gameType window n listed none [] (discover gameType window n).run
  | subscribed {s : Subscription} (h : s.Covers gameType listed []) :
      Stage gameType window n listed (some s) [⟨.subscribe gameType, .ok ()⟩]
        (.ask .now (counting gameType window n))
  | timed {s : Subscription} {now : UInt64} (h : s.Covers gameType listed []) :
      Stage gameType window n listed (some s) [⟨.subscribe gameType, .ok ()⟩, ⟨.now, now⟩]
        (counting gameType window n now)
  | scanning {s : Subscription} {now : UInt64} {count index : Nat} {scanned : List Listing}
      {hand : Option Listing} {more : List (Exchange Discovery)}
      (h : Scanned gameType (satSub now window) listed s count index scanned hand more) :
      Stage gameType window n listed (some s) (opened gameType now count ++ more)
        (welcoming .listed (hand.map Listing.game)
          (looking gameType (satSub now window) n index))
  | following {s : Subscription} {now : UInt64} {count m : Nat} {followed : List Listing}
      {hand : Option Listing} {more : List (Exchange Discovery)}
      (h : Followed gameType (satSub now window) listed s count followed hand more)
      (hm : (followed ++ hand.toList).length + m = n) :
      Stage gameType window n listed (some s) (opened gameType now count ++ more)
        (welcoming .announced (hand.map Listing.game) (Discovery.following m))
  | stopped {s : Subscription} {now : UInt64} {count : Nat} {followed : List Listing}
      {more : List (Exchange Discovery)}
      (h : Followed gameType (satSub now window) listed s count followed none more)
      (hlast : more.getLast? = some ⟨.nextEvent, none⟩) :
      Stage gameType window n listed (some s) (opened gameType now count ++ more) (.done (.ok ()))

/-! ## While the list is read, and after that -/

section
variable {earliest : UInt64} {s : Subscription} {count index : Nat}
  {scanned followed games : List Listing} {hand : Option Listing}
  {more : List (Exchange Discovery)} {e : Exchange Discovery}

/-- All is still to be read. -/
theorem Subscription.Covers.counted (h : s.Covers gameType listed []) :
    Scanned gameType earliest listed s listed.length listed.length [] none [] :=
  ⟨h, h.first, Nat.le_refl _, Nat.le_refl _, rfl, nofun, rfl, rfl, rfl, rfl⟩

/-- What the scan reads is in the list already, so a new game makes no difference to it. -/
theorem Scanned.create
    (h : Scanned gameType earliest listed s count index scanned hand more) (l : Listing) :
    Scanned gameType earliest (listed ++ [l]) (s.announce l) count index scanned hand more := by
  obtain ⟨hcovers, hfirst⟩ := h.covers.announce l
  have hcount : count ≤ (listed ++ [l]).length :=
    Nat.le_trans h.count_le (List.prefix_append listed [l]).length_le
  refine ⟨hcovers, hfirst ▸ h.first_le, hcount, h.index_le, h.reads_eq, h.young, h.taken_eq,
    h.found_eq, h.welcomed_eq, ?_⟩
  rw [recent_append h.count_le, recent_append (Nat.le_trans h.index_le h.count_le)]
  exact h.recent_eq

theorem Scanned.welcome
    (h : Scanned gameType earliest listed s count index scanned (some l) more) :
    Scanned gameType earliest listed s count index (scanned ++ [l]) none
      (more ++ [⟨.welcome .listed l.game, ()⟩]) where
  covers := h.covers
  first_le := h.first_le
  count_le := h.count_le
  index_le := h.index_le
  reads_eq := by
    rw [reads_append, ← h.reads_eq]
    exact congrArg (· ++ _) (List.append_nil _)
  young index m hread := by
    obtain hread | hread := List.mem_append.mp hread
    · exact h.young index m hread
    · exact nomatch List.mem_singleton.mp hread
  taken_eq := by
    rw [taken_append, h.taken_eq]
    rfl
  found_eq := by
    rw [found_append, h.found_eq, Option.toList_none, List.append_nil]
    exact List.append_nil _
  welcomed_eq := by
    rw [welcomed_append, h.welcomed_eq, List.map_append]
    rfl
  recent_eq := by
    rw [List.append_assoc]
    exact h.recent_eq

/-- One more place is read, which leaves so many. -/
theorem Scanned.reads_snoc
    (h : Scanned gameType earliest listed s count (index + 1) scanned hand more) (l : Listing) :
    reads (more ++ [⟨.gameAt index, .ok l⟩]) ++ (List.range index).reverse =
      (List.range count).reverse := by
  rw [← h.reads_eq, List.range_succ, List.reverse_append, reads_append, List.append_assoc]
  rfl

theorem Scanned.welcomed_read
    (h : Scanned gameType earliest listed s count (index + 1) scanned hand more) (l : Listing) :
    welcomed (more ++ [⟨.gameAt index, .ok l⟩]) = scanned.map Origin.listed.tag := by
  rw [welcomed_append, h.welcomed_eq]
  exact List.append_nil _

theorem Scanned.taken_read
    (h : Scanned gameType earliest listed s count (index + 1) scanned hand more) (l : Listing) :
    taken (more ++ [⟨.gameAt index, .ok l⟩]) = [] := by
  rw [taken_append, h.taken_eq]
  rfl

theorem found_read (gameType : UInt32) (earliest : UInt64) (index : Nat) (l : Listing) :
    found gameType earliest [⟨.gameAt index, .ok l⟩] =
      (if l.gameType = gameType ∧ earliest ≤ l.createdAt then [l] else []).map
        Origin.listed.tag := by
  split
  · next hsought => exact List.filterMap_cons_some (if_pos hsought)
  · next hsought => exact List.filterMap_cons_none (if_neg hsought)

/-- A game that is not too old is sought if it is of the type. -/
theorem toList_of_young (hyoung : earliest ≤ l.createdAt) :
    (if l.gameType = gameType ∧ earliest ≤ l.createdAt then [l] else []) =
      (if l.gameType = gameType then some l else none).toList := by
  simp only [hyoung, and_true]
  split <;> rfl

/-- The scan goes on with a game that is not too old. -/
theorem Scanned.read_young
    (h : Scanned gameType earliest listed s count (index + 1) scanned none more)
    (hl : listed[index]? = some l) (hyoung : earliest ≤ l.createdAt) :
    Scanned gameType earliest listed s count index scanned
      (if l.gameType = gameType then some l else none) (more ++ [⟨.gameAt index, .ok l⟩]) where
  covers := h.covers
  first_le := h.first_le
  count_le := h.count_le
  index_le := Nat.le_of_succ_le h.index_le
  reads_eq := h.reads_snoc l
  young place m hread := by
    obtain hread | hread := List.mem_append.mp hread
    · exact h.young place m hread
    · cases List.mem_singleton.mp hread
      exact UInt64.not_lt.mpr hyoung
  taken_eq := h.taken_read l
  found_eq := by
    rw [found_append, h.found_eq, found_read, toList_of_young hyoung, Option.toList_none,
      List.append_nil, List.map_append]
  welcomed_eq := h.welcomed_read l
  recent_eq := by
    rw [← h.recent_eq, recent_succ hl, toList_of_young hyoung]
    rfl

/-- The scan is over with a game that is too old. -/
theorem Scanned.read_old (hlisted : Chronological listed)
    (h : Scanned gameType earliest listed s count (index + 1) scanned none more)
    (hl : listed[index]? = some l) (hold : l.createdAt < earliest) :
    Followed gameType earliest listed s count [] none (more ++ [⟨.gameAt index, .ok l⟩]) := by
  have hrecent : scanned = recent gameType earliest listed count := by
    rw [← h.recent_eq, recent_eq_nil hlisted hl hold]
    exact (List.append_nil _).symm
  have hfound : found gameType earliest [⟨.gameAt index, .ok l⟩] = [] := by
    rw [found_read, if_neg fun hsought => UInt64.not_lt.mpr hsought.2 hold]
    rfl
  have hread : (⟨.gameAt index, .ok l⟩ : Exchange Discovery) ∈
      more ++ [⟨.gameAt index, .ok l⟩] := List.mem_append_right _ (List.mem_singleton_self _)
  exact {
    covers := h.covers
    first_le := h.first_le
    count_le := h.count_le
    reads_le := ⟨_, h.reads_snoc l⟩
    scan_over := .inr ⟨index, l, hread, hold⟩
    taken_length := congrArg List.length (h.taken_read l)
    found_eq := by
      rw [found_append, h.found_eq, hfound, hrecent, Option.toList_none, List.append_nil,
        List.append_nil, List.append_nil, finds_nil]
    welcomed_eq := by
      rw [finds_nil, ← hrecent]
      exact h.welcomed_read l }

/-- The scan is over when nothing is left to be read. -/
theorem Scanned.done (h : Scanned gameType earliest listed s count 0 scanned none more) :
    Followed gameType earliest listed s count [] none more := by
  have hrecent : scanned = recent gameType earliest listed count := by
    rw [← h.recent_eq, recent_zero]
    exact (List.append_nil _).symm
  have hreads : reads more = (List.range count).reverse := by
    rw [← h.reads_eq]
    exact (List.append_nil _).symm
  exact {
    covers := h.covers
    first_le := h.first_le
    count_le := h.count_le
    reads_le := ⟨_, h.reads_eq⟩
    scan_over := .inl (by rw [hreads, List.length_reverse, List.length_range])
    taken_length := congrArg List.length h.taken_eq
    found_eq := by
      rw [h.found_eq, hrecent, Option.toList_none, List.append_nil, List.append_nil, finds_nil]
    welcomed_eq := by
      rw [finds_nil, ← hrecent]
      exact h.welcomed_eq }

/-- While there is a place left to read, the scan is not over. -/
theorem Scanned.not_over
    (h : Scanned gameType earliest listed s count (index + 1) scanned hand more) :
    ¬ ScanOver earliest count more := by
  rintro (hall | ⟨place, l, hread, hold⟩)
  · have hlength := congrArg List.length h.reads_eq
    simp only [List.length_append, List.length_reverse, List.length_range] at hlength
    omega
  · exact h.young place l hread hold

theorem Followed.create
    (h : Followed gameType earliest listed s count followed hand more) (l : Listing) :
    Followed gameType earliest (listed ++ [l]) (s.announce l) count followed hand more := by
  obtain ⟨hcovers, hfirst⟩ := h.covers.announce l
  have hcount : count ≤ (listed ++ [l]).length :=
    Nat.le_trans h.count_le (List.prefix_append listed [l]).length_le
  have hrecent : recent gameType earliest (listed ++ [l]) count =
      recent gameType earliest listed count :=
    recent_append h.count_le [l]
  exact ⟨hcovers, hfirst ▸ h.first_le, hcount, h.reads_le, h.scan_over, h.taken_length,
    hrecent ▸ h.found_eq, hrecent ▸ h.welcomed_eq⟩

theorem Followed.reads_snoc (h : Followed gameType earliest listed s count followed hand more)
    (he : reads [e] = []) : reads (more ++ [e]) <+: (List.range count).reverse := by
  rw [reads_append, he, List.append_nil]
  exact h.reads_le

/-- The search is told to stop. -/
theorem Followed.stop (h : Followed gameType earliest listed s count followed none more) :
    Followed gameType earliest listed s count followed none (more ++ [⟨.nextEvent, none⟩]) where
  covers := h.covers
  first_le := h.first_le
  count_le := h.count_le
  reads_le := h.reads_snoc rfl
  scan_over := h.scan_over.append rfl
  taken_length := by
    rw [taken_append, ← h.taken_length]
    exact congrArg List.length (List.append_nil _)
  found_eq := by
    rw [found_append, ← h.found_eq]
    exact List.append_nil _
  welcomed_eq := by
    rw [welcomed_append, ← h.welcomed_eq]
    exact List.append_nil _

/-- The next event is delivered. -/
theorem Followed.deliver {later : List Listing} {event : L1.Event}
    (h : Followed gameType earliest listed s count followed none more)
    (hpending : s.pending = l :: later) (hevent : announced? event = some l.game) :
    Followed gameType earliest listed { s with pending := later } count followed (some l)
      (more ++ [⟨.nextEvent, some event⟩]) where
  covers := by
    refine ⟨h.covers.type, h.covers.first, ?_⟩
    have hevents := h.covers.events
    rw [hpending, Option.toList_none, List.append_nil] at hevents
    rw [← hevents, List.append_assoc]
    rfl
  first_le := h.first_le
  count_le := h.count_le
  reads_le := h.reads_snoc rfl
  scan_over := h.scan_over.append rfl
  taken_length := by
    rw [taken_append, List.length_append, h.taken_length, Option.toList_none, List.append_nil,
      List.length_append]
    rfl
  found_eq := by
    have hfound : found gameType earliest [⟨.nextEvent, some event⟩] = [(.announced, l.game)] :=
      List.filterMap_cons_some (congrArg (Option.map fun game => (Origin.announced, game)) hevent)
    rw [found_append, h.found_eq, hfound, Option.toList_none, Option.toList_some, List.append_nil,
      finds_snoc]
  welcomed_eq := by
    rw [welcomed_append, ← h.welcomed_eq]
    exact List.append_nil _

theorem Followed.welcome
    (h : Followed gameType earliest listed s count followed (some l) more) :
    Followed gameType earliest listed s count (followed ++ [l]) none
      (more ++ [⟨.welcome .announced l.game, ()⟩]) where
  covers := by
    rw [Option.toList_none, List.append_nil]
    exact h.covers
  first_le := h.first_le
  count_le := h.count_le
  reads_le := h.reads_snoc rfl
  scan_over := h.scan_over.append rfl
  taken_length := by
    rw [taken_append, Option.toList_none, List.append_nil]
    exact (congrArg List.length (List.append_nil _)).trans h.taken_length
  found_eq := by
    rw [found_append, Option.toList_none, List.append_nil]
    exact (List.append_nil _).trans h.found_eq
  welcomed_eq := by
    rw [welcomed_append, h.welcomed_eq, finds_snoc]
    rfl

/-- With `m` of `n` events to come. -/
theorem atRest_following {m : Nat} (hm : (taken more).length + m = n) :
    AtRest n more (following m) := by
  cases m with
  | zero => exact .spent hm
  | succ m =>
    rw [following_succ]
    exact .waiting _ (by omega)

/-- If nothing is left to be done, the scan is over and every game that was found is welcomed. -/
theorem Discovery.Proceeds.of_atRest {rest : Program Discovery (Except Fault Unit)}
    (h : Proceeds gameType earliest n count more rest) (hrest : AtRest n more rest) :
    found gameType earliest more = welcomed more ∧ ScanOver earliest count more := by
  cases h with
  | welcome => cases hrest
  | read => cases hrest
  | rest hfound hscan => exact ⟨hfound, hscan⟩

end

namespace Stage

variable {s s' : Option Subscription} {sub : Subscription} {now : UInt64} {count index m : Nat}
  {scanned followed : List Listing} {hand : Option Listing} {log more : List (Exchange Discovery)}
  {q : Discovery.Ask} {reply : Discovery.Reply q}
  {next : Discovery.Reply q → Program Discovery (Except Fault Unit)}
  {rest : Program Discovery (Except Fault Unit)}

theorem create (h : Stage gameType window n listed s log rest) (l : Listing) :
    Stage gameType window n (listed ++ [l]) (s.map (·.announce l)) log rest := by
  cases h with
  | opening => exact .opening
  | subscribed h => exact .subscribed (h.announce l).1
  | timed h => exact .timed (h.announce l).1
  | scanning h => exact .scanning (h.create l)
  | following h hm => exact .following (h.create l) hm
  | stopped h hlast => exact .stopped (h.create l) hlast

/-- The search waits for the next event, and `m` may come. -/
theorem answer_following
    (h : Followed gameType (satSub now window) listed sub count followed none more)
    (hm : followed.length + m = n) (hrest : Discovery.following m = .ask q next)
    (ha : Answers factory listed (some sub) q reply s') :
    Stage gameType window n listed s' (opened gameType now count ++ more ++ [⟨q, reply⟩])
      (next reply) := by
  cases m with
  | zero => exact nomatch (show Program.stuck = _ from hrest)
  | succ m =>
    rw [following_succ] at hrest
    obtain ⟨rfl, hnext⟩ := Program.ask.inj hrest
    obtain rfl := eq_of_heq hnext
    rw [List.append_assoc]
    cases ha with
    | nextEvent hpending hevent =>
      dsimp only
      rw [announced_of_isCreation hevent]
      refine following (h.deliver hpending (announced_of_isCreation hevent)) ?_
      rw [List.length_append, ← hm]
      exact Nat.add_right_comm _ 1 m
    | stop => exact stopped h.stop (List.getLast?_append_of_ne_nil _ (List.cons_ne_nil _ _))

/-- The search has read the game at an index. -/
theorem answer_looking (hlisted : Chronological listed)
    (h : Scanned gameType (satSub now window) listed sub count index scanned none more)
    (hrest : looking gameType (satSub now window) n index = .ask q next)
    (ha : Answers factory listed (some sub) q reply s') :
    Stage gameType window n listed s' (opened gameType now count ++ more ++ [⟨q, reply⟩])
      (next reply) := by
  cases index with
  | zero =>
    rw [looking_zero] at hrest
    exact answer_following h.done (Nat.zero_add n) hrest ha
  | succ index =>
    rw [looking_succ] at hrest
    obtain ⟨rfl, hnext⟩ := Program.ask.inj hrest
    obtain rfl := eq_of_heq hnext
    rw [List.append_assoc]
    cases ha with
    | @gameAt _ _ l hl =>
      dsimp only
      split
      · next hold => exact following (h.read_old hlisted hl hold) (Nat.zero_add n)
      · next hyoung =>
        have hhand : (if l.gameType = gameType then some l.game else none) =
            (if l.gameType = gameType then some l else none).map Listing.game := by
          split <;> rfl
        rw [hhand]
        exact scanning (h.read_young hl (UInt64.not_lt.mp hyoung))

theorem answer (hlisted : Chronological listed) (h : Stage gameType window n listed s log rest)
    (hrest : rest = .ask q next) (ha : Answers factory listed s q reply s') :
    Stage gameType window n listed s' (log ++ [⟨q, reply⟩]) (next reply) := by
  cases h with
  | opening =>
    rw [run_discover] at hrest
    obtain ⟨rfl, hnext⟩ := Program.ask.inj hrest
    obtain rfl := eq_of_heq hnext
    cases ha
    exact .subscribed ⟨rfl, Nat.le_refl _, by simp [fresh]⟩
  | subscribed h =>
    obtain ⟨rfl, hnext⟩ := Program.ask.inj hrest
    obtain rfl := eq_of_heq hnext
    cases ha
    exact .timed h
  | timed h =>
    obtain ⟨rfl, hnext⟩ := Program.ask.inj hrest
    obtain rfl := eq_of_heq hnext
    cases ha
    exact scanning h.counted
  | @scanning _ _ _ _ _ hand _ h =>
    cases hand with
    | none => exact answer_looking hlisted h hrest ha
    | some l =>
      obtain ⟨rfl, hnext⟩ := Program.ask.inj hrest
      obtain rfl := eq_of_heq hnext
      cases ha
      rw [List.append_assoc]
      exact scanning h.welcome
  | @following _ _ _ _ followed hand _ h hm =>
    cases hand with
    | none => exact answer_following h (List.append_nil followed ▸ hm) hrest ha
    | some l =>
      obtain ⟨rfl, hnext⟩ := Program.ask.inj hrest
      obtain rfl := eq_of_heq hnext
      cases ha
      rw [List.append_assoc]
      exact following h.welcome (by rwa [Option.toList_none, List.append_nil])
  | stopped => exact nomatch hrest

/-- What has been welcomed so far is the beginning of what is to be found in either way. -/
theorem welcomes (h : Stage gameType window n listed s log rest) :
    ∃ earliest count first scanned followed,
      welcomed log = finds scanned followed ∧
        scanned <+: recent gameType earliest listed count ∧
        followed <+: fresh gameType listed first := by
  have hevents {sub : Subscription} {followed delivered : List Listing}
      (h : sub.Covers gameType listed (followed ++ delivered)) :
      followed <+: fresh gameType listed sub.first := by
    rw [← h.events, List.append_assoc]
    exact List.prefix_append ..
  cases h with
  | opening => exact ⟨0, 0, 0, [], [], rfl, List.nil_prefix, List.nil_prefix⟩
  | subscribed => exact ⟨0, 0, 0, [], [], rfl, List.nil_prefix, List.nil_prefix⟩
  | timed => exact ⟨0, 0, 0, [], [], rfl, List.nil_prefix, List.nil_prefix⟩
  | @scanning _ _ _ _ scanned _ _ h =>
    refine ⟨_, _, 0, scanned, [], ?_, ⟨_, h.recent_eq⟩, List.nil_prefix⟩
    rw [finds_nil]
    exact h.welcomed_eq
  | following h => exact ⟨_, _, _, _, _, h.welcomed_eq, List.prefix_rfl, hevents h.covers⟩
  | stopped h => exact ⟨_, _, _, _, _, h.welcomed_eq, List.prefix_rfl, hevents h.covers⟩

theorem reads_descending (h : Stage gameType window n listed s log rest) :
    reads log = [] ∨ ∃ count, ⟨.gameCount, .ok count⟩ ∈ log ∧
      reads log <+: (List.range count).reverse := by
  have hmem {now : UInt64} {count : Nat} {more : List (Exchange Discovery)} :
      (⟨.gameCount, .ok count⟩ : Exchange Discovery) ∈ opened gameType now count ++ more :=
    List.mem_append_left _ (.tail _ (.tail _ (.head _)))
  cases h with
  | opening => exact .inl rfl
  | subscribed => exact .inl rfl
  | timed => exact .inl rfl
  | scanning h => exact .inr ⟨_, hmem, ⟨_, h.reads_eq⟩⟩
  | following h => exact .inr ⟨_, hmem, h.reads_le⟩
  | stopped h => exact .inr ⟨_, hmem, h.reads_le⟩

/-- The search does what it is to do next, while it reads the list. -/
theorem proceeds_scanning
    (h : Scanned gameType (satSub now window) listed sub count index scanned hand more) :
    Proceeds gameType (satSub now window) n count more
      (welcoming .listed (hand.map Listing.game)
        (looking gameType (satSub now window) n index)) := by
  have hfound := h.found_eq
  rw [List.map_append, ← h.welcomed_eq] at hfound
  cases hand with
  | some l => exact .welcome _ hfound
  | none =>
    replace hfound : found gameType (satSub now window) more = welcomed more :=
      hfound.trans (List.append_nil _)
    cases index with
    | succ index =>
      rw [Option.map_none, welcoming, looking_succ]
      exact .read _ hfound h.not_over h.reads_eq
    | zero =>
      have htaken : (taken more).length = 0 := congrArg List.length h.taken_eq
      rw [Option.map_none, welcoming, looking_zero]
      exact .rest hfound h.done.scan_over (atRest_following (htaken.symm ▸ Nat.zero_add n))

/-- And while it goes through the events. -/
theorem proceeds_following
    (h : Followed gameType (satSub now window) listed sub count followed hand more)
    (hm : (followed ++ hand.toList).length + m = n) :
    Proceeds gameType (satSub now window) n count more
      (welcoming .announced (hand.map Listing.game) (Discovery.following m)) := by
  have hfound := h.found_eq
  cases hand with
  | some l =>
    rw [Option.toList_some, finds_snoc, ← h.welcomed_eq] at hfound
    exact .welcome _ hfound
  | none =>
    rw [Option.toList_none, List.append_nil, ← h.welcomed_eq] at hfound
    refine .rest hfound h.scan_over (atRest_following ?_)
    rw [h.taken_length, hm]

/-- How the search stands: it asks one of its three first questions, or does what it is to do next.
When the scan is over, it has found all that there is to be found. -/
theorem standing (h : Stage gameType window n listed s log rest) :
    (∃ q next, rest = .ask q next ∧
      log.map (·.ask) ++ [q] <+: [.subscribe gameType, .now, .gameCount]) ∨
    ∃ now count sub more, log = opened gameType now count ++ more ∧ s = some sub ∧
      sub.first ≤ count ∧ count ≤ listed.length ∧
      Proceeds gameType (satSub now window) n count more rest ∧
      (ScanOver (satSub now window) count more → ∃ followed,
        found gameType (satSub now window) more =
          finds (recent gameType (satSub now window) listed count) followed ∧
        (taken more).length = followed.length ∧
        followed ++ sub.pending = fresh gameType listed sub.first) := by
  cases h with
  | opening => exact .inl ⟨_, _, run_discover gameType window n, by simp⟩
  | subscribed => exact .inl ⟨_, _, rfl, by simp⟩
  | timed => exact .inl ⟨_, _, rfl, by simp⟩
  | @scanning _ _ _ index _ hand _ h =>
    refine .inr ⟨_, _, _, _, rfl, rfl, h.first_le, h.count_le, proceeds_scanning h, fun hover => ?_⟩
    cases index with
    | succ index => exact absurd hover h.not_over
    | zero =>
      refine ⟨[], ?_, congrArg List.length h.taken_eq, h.covers.events⟩
      rw [finds_nil, h.found_eq, ← h.recent_eq, recent_zero, List.append_nil]
  | following h hm =>
    exact .inr ⟨_, _, _, _, rfl, rfl, h.first_le, h.count_le, proceeds_following h hm,
      fun _ => ⟨_, h.found_eq, h.taken_length, h.covers.events⟩⟩
  | stopped h hlast =>
    have hfound := h.found_eq
    rw [Option.toList_none, List.append_nil, ← h.welcomed_eq] at hfound
    exact .inr ⟨_, _, _, _, rfl, rfl, h.first_le, h.count_le,
      .rest hfound h.scan_over (.stopped hlast),
      fun _ => ⟨_, h.found_eq, h.taken_length, h.covers.events⟩⟩

/-- The scan stays within the list. -/
theorem lt_of_gameAt {index : Nat}
    {next : Except Fault Listing → Program Discovery (Except Fault Unit)}
    (h : Stage gameType window n listed s log rest) (hrest : rest = .ask (.gameAt index) next) :
    index < listed.length := by
  subst hrest
  obtain ⟨q, next', hask, hfirst⟩ | ⟨_, count, _, more, -, -, -, hcount, hproceeds, -⟩ := h.standing
  · obtain ⟨rfl, -⟩ := Program.ask.inj hask
    have hmem := hfirst.subset (List.mem_append_right _ (List.mem_singleton_self _))
    simp at hmem
  · cases hproceeds with
    | read _ _ _ hindex =>
      have hlength := congrArg List.length hindex
      simp only [List.length_append, List.length_reverse, List.length_range] at hlength
      omega
    | rest _ _ hrest => cases hrest

/-- There is an answer to whatever the search asks. -/
theorem answerable (h : Stage gameType window n listed s log rest) (hrest : rest = .ask q next) :
    ∃ reply s', Answers factory listed s q reply s' := by
  cases q with
  | subscribe gameType => exact ⟨_, _, .subscribe s gameType⟩
  | now => exact ⟨0, s, .now s 0⟩
  | gameCount => exact ⟨_, s, .gameCount s⟩
  | gameAt index =>
    have hindex := h.lt_of_gameAt hrest
    exact ⟨.ok listed[index], s, .gameAt s (List.getElem?_eq_getElem hindex)⟩
  | nextEvent => exact ⟨none, s, .stop s⟩
  | welcome origin game => exact ⟨(), s, .welcome s origin game⟩
  | notify notice => exact ⟨(), s, .notify s notice⟩

end Stage

namespace Scene

variable {scene scene' : Scene}

theorem Reaches.staged (h : Reaches factory gameType window n scene) :
    Chronological scene.listed ∧
      Stage gameType window n scene.listed scene.subscription scene.log scene.rest := by
  induction h with
  | opening hlisted => exact ⟨hlisted, .opening⟩
  | step _ hstep ih =>
    obtain ⟨hlisted, hstage⟩ := ih
    cases hstep with
    | create l hlast =>
      refine ⟨List.pairwise_append.mpr ⟨hlisted, List.pairwise_singleton _ l, ?_⟩, hstage.create l⟩
      intro m hm l' hl'
      obtain rfl := List.mem_singleton.mp hl'
      exact hlast m hm
    | answer hrest ha => exact ⟨hlisted, hstage.answer hlisted hrest ha⟩

end Scene

open Scene in
/-- Whenever games are created, and whenever the search gets its answers: only games of the type are
welcomed, and each at most once as one of the list and once for its event; the list is read from the
newest game down, each place once; the scan comes to its end; and nothing is asked that has no
answer. After its first three questions, the search welcomes what it has found, reads on until the
scan is over, and then waits for event after event, until it is told to stop or has taken as many as
it may. Once the scan is over, what has been found are the games of the type among the first `count`
that are recent enough, from the newest down, and after them those created since it subscribed, as
far as their events have been delivered. When it is at rest and all of them are, every game of the
type that is recent enough or was created since it subscribed has been welcomed. -/
theorem no_game_lost {scene : Scene} (h : Reaches factory gameType window n scene) :
    (∀ origin game, (origin, game) ∈ welcomed scene.log →
      ∃ l ∈ scene.listed, l.gameType = gameType ∧ l.game = game) ∧
    (∀ origin game, (welcomed scene.log).count (origin, game) ≤
      ((scene.listed.filter (·.gameType = gameType)).map Listing.game).count game) ∧
    (reads scene.log = [] ∨ ∃ count, ⟨.gameCount, .ok count⟩ ∈ scene.log ∧
      reads scene.log <+: (List.range count).reverse) ∧
    (∀ rely, (scan gameType window).run.Meets rely (· ≠ none)) ∧
    (∀ q next, scene.rest = .ask q next →
      ∃ reply s, Answers factory scene.listed scene.subscription q reply s) ∧
    ((∃ q next, scene.rest = .ask q next ∧
        scene.log.map (·.ask) ++ [q] <+: [.subscribe gameType, .now, .gameCount]) ∨
      ∃ now count subscription more, scene.log = opened gameType now count ++ more ∧
        scene.subscription = some subscription ∧ subscription.first ≤ count ∧
        count ≤ scene.listed.length ∧
        Proceeds gameType (satSub now window) n count more scene.rest ∧
        (ScanOver (satSub now window) count more → ∃ followed,
          found gameType (satSub now window) more =
            finds (recent gameType (satSub now window) scene.listed count) followed ∧
          (taken more).length = followed.length ∧
          followed ++ subscription.pending = fresh gameType scene.listed subscription.first) ∧
        (AtRest n more scene.rest → subscription.pending = [] →
          ∀ index l, scene.listed[index]? = some l → l.gameType = gameType →
            satSub now window ≤ l.createdAt ∨ subscription.first ≤ index →
            ∃ origin, (origin, l.game) ∈ welcomed scene.log)) := by
  obtain ⟨-, hstage⟩ := h.staged
  obtain ⟨earliest, count, first, scanned, followed, hwelcomed, hscanned, hfollowed⟩ :=
    hstage.welcomes
  have hscanned' := (List.reverse_sublist.mpr hscanned.sublist).trans (recent_sublist ..)
  have hfollowed' := hfollowed.sublist.trans (fresh_sublist ..)
  refine ⟨fun origin game hgame => ?_, fun origin game => ?_, hstage.reads_descending,
    ends_scan gameType window, fun q next hrest => hstage.answerable hrest,
    hstage.standing.imp_right ?_⟩
  · have hmem : game ∈ (scene.listed.filter (·.gameType = gameType)).map Listing.game := by
      rw [hwelcomed, mem_finds_iff] at hgame
      obtain ⟨-, hgame⟩ | ⟨-, hgame⟩ := hgame
      · refine (hscanned'.map Listing.game).subset ?_
        rwa [List.map_reverse, List.mem_reverse]
      · exact (hfollowed'.map Listing.game).subset hgame
    obtain ⟨l, hl, rfl⟩ := List.mem_map.mp hmem
    obtain ⟨hlisted, htype⟩ := List.mem_filter.mp hl
    exact ⟨l, hlisted, of_decide_eq_true htype, rfl⟩
  · rw [hwelcomed, count_finds]
    cases origin with
    | listed =>
      have hcount := (hscanned'.map Listing.game).count_le game
      rwa [List.map_reverse, List.count_reverse] at hcount
    | announced => exact (hfollowed'.map Listing.game).count_le game
  · rintro ⟨now, count, subscription, more, hlog, hsubscription, hfirst, hcount, hproceeds, hover⟩
    refine ⟨now, count, subscription, more, hlog, hsubscription, hfirst, hcount, hproceeds, hover,
      fun hrest hpending index l hl htype hsought => ?_⟩
    obtain ⟨hfound, hscan⟩ := hproceeds.of_atRest hrest
    obtain ⟨followed, hall, -, hevents⟩ := hover hscan
    rw [hpending, List.append_nil] at hevents
    have hwelcomed : welcomed scene.log =
        finds (recent gameType (satSub now window) scene.listed count) followed := by
      rw [← hall, hfound, hlog]
      rfl
    rw [hwelcomed]
    by_cases hindex : subscription.first ≤ index
    · have hfresh := mem_fresh hl hindex htype
      exact ⟨.announced, mem_finds_iff.mpr (.inr ⟨rfl, List.mem_map_of_mem (hevents ▸ hfresh)⟩)⟩
    · have hcounted : index < count := Nat.lt_of_lt_of_le (Nat.lt_of_not_le hindex) hfirst
      have hrecent := mem_recent hl hcounted htype (hsought.resolve_right hindex)
      exact ⟨.listed, mem_finds_iff.mpr (.inl ⟨rfl, List.mem_map_of_mem hrecent⟩)⟩

end

namespace Sample

open Scene

/-! ## A game that is found twice, and one that only its event tells of -/

/-- The first game is too old, and the third is of another type. -/
def listed : List Listing :=
  [⟨1, 100, .filled 1⟩, ⟨1, 110, .filled 2⟩, ⟨2, 160, .filled 3⟩]

/-- Created when the search has subscribed and has not yet counted the games. -/
def listedInTime : Listing := ⟨1, 170, .filled 4⟩

/-- Created when they have been counted. -/
def listedLate : Listing := ⟨1, 210, .filled 5⟩

def announcement (game : Address) : L1.Event :=
  ⟨.zero, [Contract.creationTopic, Address.padded game]⟩

theorem isCreation (game : Address) :
    Contract.isCreation .zero game (announcement game) = true := by
  simp [Contract.isCreation, announcement]

theorem reaches_waiting : ∃ scene next, Reaches .zero 1 90 3 scene ∧
    scene.rest = .ask .nextEvent next ∧ scene.subscription = some ⟨1, 3, []⟩ ∧
    welcomed scene.log = [(.listed, .filled 4), (.listed, .filled 2), (.announced, .filled 4),
      (.announced, .filled 5)] ∧
    (taken scene.log).length = 2 := by
  have opening : Reaches .zero 1 90 3 ⟨listed, none, [], (discover 1 90 3).run⟩ :=
    .opening (by unfold Chronological; decide)
  have looking := opening
    |>.step (@Step.answer _ _ (.subscribe 1) _ (.ok ()) _ rfl (.subscribe _ 1))
    |>.step (.create listedInTime (by decide))
    |>.step (@Step.answer _ _ .now _ 200 _ rfl (.now _ 200))
    |>.step (@Step.answer _ _ .gameCount _ (.ok 4) _ rfl (.gameCount _))
  have scanned := looking
    |>.step (.create listedLate (by decide))
    |>.step (@Step.answer _ _ (.gameAt 3) _ (.ok listedInTime) _ rfl (.gameAt _ rfl))
    |>.step (@Step.answer _ _ (.welcome .listed (.filled 4)) _ () _ rfl (.welcome _ _ _))
    |>.step (@Step.answer _ _ (.gameAt 2) _ (.ok ⟨2, 160, .filled 3⟩) _ rfl (.gameAt _ rfl))
    |>.step (@Step.answer _ _ (.gameAt 1) _ (.ok ⟨1, 110, .filled 2⟩) _ rfl (.gameAt _ rfl))
    |>.step (@Step.answer _ _ (.welcome .listed (.filled 2)) _ () _ rfl (.welcome _ _ _))
    |>.step (@Step.answer _ _ (.gameAt 0) _ (.ok ⟨1, 100, .filled 1⟩) _ rfl (.gameAt _ rfl))
  have followed := scanned
    |>.step (@Step.answer _ _ .nextEvent _ (some (announcement listedInTime.game)) _ rfl
      (.nextEvent rfl (isCreation _)))
    |>.step (@Step.answer _ _ (.welcome .announced (.filled 4)) _ () _ rfl (.welcome _ _ _))
    |>.step (@Step.answer _ _ .nextEvent _ (some (announcement listedLate.game)) _ rfl
      (.nextEvent rfl (isCreation _)))
    |>.step (@Step.answer _ _ (.welcome .announced (.filled 5)) _ () _ rfl (.welcome _ _ _))
  exact ⟨_, _, followed, rfl, rfl, rfl, rfl⟩

end Sample

open Sample Scene in
/-- The scan and the event find a game, one after the other, another game is found by its event
alone, and then the search waits for the third event, and nothing is missing. -/
theorem no_game_lost_sample : ∃ scene next, Reaches .zero 1 90 3 scene ∧
    scene.rest = .ask .nextEvent next ∧
    welcomed scene.log = [(.listed, .filled 4), (.listed, .filled 2), (.announced, .filled 4),
      (.announced, .filled 5)] ∧
    ∃ now count more, scene.log = opened 1 now count ++ more ∧
      Proceeds 1 (satSub now 90) 3 count more scene.rest ∧
      ∀ (index : Nat) (l : Listing), scene.listed[index]? = some l → l.gameType = 1 →
        satSub now 90 ≤ l.createdAt ∨ 3 ≤ index →
        ∃ origin, (origin, l.game) ∈ welcomed scene.log := by
  obtain ⟨scene, next, hreaches, hrest, hsubscription, hwelcomed, htaken⟩ := reaches_waiting
  have hstands := (no_game_lost hreaches).2.2.2.2.2
  rw [hrest] at hstands
  obtain ⟨q, next', hask, hfirst⟩ | ⟨now, count, subscription, more, hlog, hsame, -, -,
    hproceeds, -, hcomplete⟩ := hstands
  · obtain ⟨rfl, -⟩ := Program.ask.inj hask
    have hmem := hfirst.subset (List.mem_append_right _ (List.mem_singleton_self _))
    simp at hmem
  · obtain rfl := Option.some.inj (hsubscription.symm.trans hsame)
    have hfew : (taken more).length = 2 := by
      rw [← htaken, hlog]
      rfl
    exact ⟨scene, next, hreaches, hrest, hwelcomed, now, count, more, hlog, hrest ▸ hproceeds,
      hcomplete (.waiting next (by omega)) rfl⟩

end Watchtower
