import Watchtower.Discovery
import Watchtower.Rollup.Client
import Watchtower.Submission
import Watchtower.Watcher

/-!
# Watching games on a real chain

The handle of a game is its contract. What the search asks of the factory, and what a watcher asks
about games, of the rollup node, and of the one who sends transactions, leads to requests.

* `Live` : what is left to ask: nodes, the clock, the signal to stop, the log, the events of the
  factory, and the loop over tracked games. Requests for chain data are among it, as they are
  repeated and can be cut short;
* `Live.survey`, `Live.answer` : how the search's and a watcher's questions are answered;
* `Live.prepare` : the watcher of a found game;
* `Live.welcome` : what looking after a found game comes to. Its watcher is handed over if the game
  is in progress.
-/

namespace Watchtower

inductive Live.Ask
  | chain (q : Chain.Ask)
  | watch (q : Watch.Ask Contract)
  /-- Of the search: the subscription, its events, and that a game is welcomed, beside all else. -/
  | search (q : Discovery.Ask)
  /-- Whether the loop over tracked games takes a watcher. -/
  | handOver (watcher : Watcher Contract)

abbrev Live.Reply : Live.Ask → Type
  | .chain q => Chain.Reply q
  | .watch q => Watch.Reply Contract q
  | .search q => Discovery.Reply q
  | .handOver _ => Bool

abbrev Live : Interface := ⟨Live.Ask, Live.Reply⟩

namespace Live

def ask (q : Live.Ask) : Program Live (Live.Reply q) := Program.query (I := Live) q

/-- An inquiry, its questions asked of the live surroundings. -/
def inquire {α : Type} (x : Inquiry α) : Program Live (Except Fault α) :=
  x.run.handle fun q => ask (.chain q)

def survey (factory : Address) : (q : Discovery.Ask) → Program Live (Discovery.Reply q)
  | .gameCount => inquire (Factory.gameCount factory)
  | .gameAt index => inquire (Factory.gameAt factory index)
  | .now => ask (.watch .now)
  | .notify notice => ask (.watch (.notify notice))
  | q => ask (.search q)

def answer : (q : Watch.Ask Contract) → Program Live (Watch.Reply Contract q)
  | .read game what => inquire (game.read what)
  | .validate head => inquire (Rollup.validate head)
  | .submit game action => inquire (Submission.submit game action)
  | q => ask (.watch q)

def prepare (settings : Settings) (factory game : Address) :
    Program Live (Except Fault (Watcher Contract)) := do
  match ← inquire (Contract.bind game factory) with
  | .error fault => return .error fault
  | .ok contract => (Watcher.of settings contract game).handle answer

/-- Reports a fault in the words for where the game was found. -/
def report (origin : Discovery.Origin) (fault : Fault) : Program Live Unit :=
  ask (.watch (.notify (origin.failure fault)))

/-- Looks after a found game. -/
def welcome (settings : Settings) (factory : Address) (origin : Discovery.Origin) (game : Address) :
    Program Live Unit := do
  match ← prepare settings factory game with
  | .error fault => report origin fault
  | .ok watcher =>
    if watcher.status ≠ .inProgress then return ()
    else if ← ask (.handOver watcher) then return ()
    else report origin Cause.pollingStopped

end Live

end Watchtower
