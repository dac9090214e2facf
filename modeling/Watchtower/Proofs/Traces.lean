import Watchtower.Proofs.Triple

/-!
# Work and the exchanges that it makes

* `x.Yields cache trace result cache'` : with the exchanges of `trace`, in order, the work `x` from
  `cache` ends in `result`, value or fault, and in `cache'`. A question may be answered differently
  each time that it is asked. Each way to build work has its equivalence;
* `Upholds.of_yields`, `Keeps.of_yields`, `Asks.of_yields` : what is upheld, kept or asked is so
  along every such trace.
-/

namespace Watchtower

open Program

theorem Program.Asks.of_yields {I : Interface} {α : Type} {may : I.Ask → Prop} {p : Program I α}
    {trace : List (Exchange I)} {a : α} (h : p.Asks may) (hy : p.Yields trace a) :
    ∀ e ∈ trace, may e.ask := by
  induction hy with
  | done a => exact fun _ he => nomatch he
  | ask _ ih => exact List.forall_mem_cons.mpr ⟨h.1, ih (h.2 _)⟩

/-- A question is answered by one answer. -/
theorem Exchange.reply_inj {I : Interface} {q : I.Ask} {r r' : I.Reply q}
    (h : (⟨q, r⟩ : Exchange I) = ⟨q, r'⟩) : r = r' :=
  eq_of_heq (Exchange.mk.inj h).2

namespace Work

variable {γ α β : Type} {x : Work γ α} {f : α → Work γ β} {cache cache' : OutputCache}
  {trace : List (Exchange (Watch γ))}

def Yields (x : Work γ α) (cache : OutputCache) (trace : List (Exchange (Watch γ)))
    (result : Except Fault α) (cache' : OutputCache) : Prop :=
  (x cache).Yields trace (result, cache')

theorem yields_ofExcept_iff {r result : Except Fault α} :
    (ofExcept r : Work γ α).Yields cache trace result cache' ↔
      trace = [] ∧ result = r ∧ cache' = cache := by
  have hdone : (ofExcept r : Work γ α) cache = .done (r, cache) := by cases r <;> rfl
  unfold Yields
  rw [hdone, yields_done_iff, Prod.mk.injEq]

theorem yields_pure_iff {a : α} {result : Except Fault α} :
    (pure a : Work γ α).Yields cache trace result cache' ↔
      trace = [] ∧ result = .ok a ∧ cache' = cache :=
  yields_ofExcept_iff (r := .ok a)

theorem yields_ask_iff {q : Watch.Ask γ} {result : Except Fault (Watch.Reply γ q)} :
    (ask q).Yields cache trace result cache' ↔
      ∃ reply, trace = [⟨q, reply⟩] ∧ result = .ok reply ∧ cache' = cache := by
  unfold Yields ask
  rw [Program.yields_ask_iff]
  constructor
  · rintro ⟨reply, rest, rfl, h⟩
    obtain ⟨rfl, he⟩ := yields_done_iff.mp h
    exact ⟨reply, rfl, Prod.mk.inj he⟩
  · rintro ⟨reply, rfl, rfl, rfl⟩
    exact ⟨reply, [], rfl, .done _⟩

/-- A sequence fails with its first part, or goes on from its value with the second. -/
theorem yields_bind_iff {result : Except Fault β} :
    (x >>= f).Yields cache trace result cache' ↔
      (∃ fault, result = .error fault ∧ x.Yields cache trace (.error fault) cache') ∨
      ∃ a c first second, trace = first ++ second ∧ x.Yields cache first (.ok a) c ∧
        (f a).Yields c second result cache' := by
  unfold Yields
  rw [bind_apply, Program.yields_bind_iff]
  constructor
  · rintro ⟨⟨fault | a, c⟩, first, second, rfl, hx, hf⟩
    · obtain ⟨rfl, he⟩ := yields_done_iff.mp hf
      obtain ⟨rfl, rfl⟩ := Prod.mk.inj he
      exact .inl ⟨fault, rfl, by rwa [List.append_nil]⟩
    · exact .inr ⟨a, c, first, second, rfl, hx, hf⟩
  · rintro (⟨fault, rfl, hx⟩ | ⟨a, c, first, second, rfl, hx, hf⟩)
    · exact ⟨_, trace, [], (List.append_nil _).symm, hx, .done _⟩
    · exact ⟨_, first, second, rfl, hx, hf⟩

theorem yields_bind_ok_iff {b : β} :
    (x >>= f).Yields cache trace (.ok b) cache' ↔
      ∃ a c first second, trace = first ++ second ∧ x.Yields cache first (.ok a) c ∧
        (f a).Yields c second (.ok b) cache' := by
  rw [yields_bind_iff, or_iff_right]
  exact fun ⟨fault, h, _⟩ => nomatch h

theorem yields_read_iff {game : γ} {what : Read} {result : Except Fault (what.Value γ)} :
    (read game what).Yields cache trace result cache' ↔
      trace = [⟨.read game what, result⟩] ∧ cache' = cache := by
  unfold read
  rw [yields_bind_iff]
  constructor
  · rintro (⟨fault, -, h⟩ | ⟨reply, c, first, second, rfl, hask, hresult⟩)
    · obtain ⟨reply, -, he, -⟩ := Work.yields_ask_iff.mp h
      cases he
    · obtain ⟨_, rfl, he, rfl⟩ := Work.yields_ask_iff.mp hask
      obtain rfl := Except.ok.inj he
      obtain ⟨rfl, rfl, rfl⟩ := yields_ofExcept_iff.mp hresult
      exact ⟨rfl, rfl⟩
  · rintro ⟨rfl, rfl⟩
    refine .inr ⟨result, cache', _, [], (List.append_nil _).symm, ?_, ?_⟩
    · exact Work.yields_ask_iff.mpr ⟨result, rfl, rfl, rfl⟩
    · exact yields_ofExcept_iff.mpr ⟨rfl, rfl, rfl⟩

theorem yields_read_bind_ok_iff {game : γ} {what : Read} {f : what.Value γ → Work γ β} {b : β} :
    (read game what >>= f).Yields cache trace (.ok b) cache' ↔
      ∃ v rest, trace = ⟨.read game what, .ok v⟩ :: rest ∧
        (f v).Yields cache rest (.ok b) cache' := by
  rw [yields_bind_ok_iff]
  constructor
  · rintro ⟨v, c, first, second, rfl, hread, hf⟩
    obtain ⟨rfl, rfl⟩ := yields_read_iff.mp hread
    exact ⟨v, second, rfl, hf⟩
  · rintro ⟨v, rest, rfl, hf⟩
    exact ⟨v, cache, [_], rest, rfl, yields_read_iff.mpr ⟨rfl, rfl⟩, hf⟩

variable {rely : (Watch γ).Rely} {result : Except Fault α}

theorem Upholds.of_yields {post : Except Fault α → OutputCache → Prop}
    (h : x.Upholds rely cache post) (hy : x.Yields cache trace result cache')
    (hr : ∀ e ∈ trace, rely e.ask e.reply) : post result cache' :=
  Meets.of_yields h hy hr

theorem Keeps.of_yields {inv : OutputCache → Prop} (h : x.Keeps rely inv) (hc : inv cache)
    (hy : x.Yields cache trace result cache') (hr : ∀ e ∈ trace, rely e.ask e.reply) : inv cache' :=
  Upholds.of_yields (h cache hc) hy hr

theorem Asks.of_yields {may : Watch.Ask γ → Prop} (h : x.Asks may)
    (hy : x.Yields cache trace result cache') : ∀ e ∈ trace, may e.ask :=
  (h cache).of_yields hy

end Work

end Watchtower
