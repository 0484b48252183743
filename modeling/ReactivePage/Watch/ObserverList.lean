import ReactivePage.Dict

namespace ReactivePage

universe u v

structure ObserverList (α : Type u) where
  entries : Dict Nat α
  nextId : Nat
  bound : ∀ e ∈ entries.toList, e.1 < nextId

namespace ObserverList

variable {α : Type u}

def empty : ObserverList α := ⟨∅, 0, fun _ h => nomatch h⟩

instance : EmptyCollection (ObserverList α) := ⟨empty⟩

def size (l : ObserverList α) : Nat := l.entries.size

def contains (l : ObserverList α) (id : Nat) : Bool := l.entries.contains id

def subscribe (l : ObserverList α) (a : α) : Nat × ObserverList α :=
  (l.nextId, {
    entries := l.entries.insert l.nextId a
    nextId := l.nextId + 1
    bound := fun e h => by
      rcases mem_putEntry h with rfl | h
      · exact Nat.lt_succ_self _
      · exact Nat.lt_succ_of_lt (l.bound e h) })

def close (l : ObserverList α) (id : Nat) : ObserverList α where
  entries := l.entries.erase id
  nextId := l.nextId
  bound := fun e h => l.bound e (List.mem_filter.1 h).1

/-- Calls the observers of a list that lives in a state which the calls may change. -/
def notify {σ : Type v} (list : σ → ObserverList α) (call : α → σ → σ) (s : σ) : σ :=
  (list s).entries.toList.foldl
    (fun s e => if (list s).contains e.1 then call e.2 s else s) s

end ObserverList

end ReactivePage
