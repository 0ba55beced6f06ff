import LinkGraph.Proofs.Conversion.Container
import LinkGraph.Proofs.Session.Acceptance
import LinkGraph.Proofs.Store.Alike

namespace LinkGraph

theorem Store.Ready.alike {site : Site} {s t : Store} {f : Forest Numbered}
    (hs : Ready site f.ids s) (ht : Ready site f.ids t) (hnext : s.nextId = t.nextId)
    (hcontainer : s.hasLink site.container = t.hasLink site.container) :
    Alike (f.batch site none) s t where
  nextId := hnext
  references op hop id hid := by
    obtain ⟨before, after, heq⟩ := List.append_of_mem hop
    have hkinds : ∀ kind, s.hasLink (site.kinds.get kind) = t.hasLink (site.kinds.get kind) :=
      fun kind => (hs.kinds kind).trans (ht.kinds kind).symm
    have hgrounded : (f.batch site none).Grounded fun id => s.hasLink id = t.hasLink id :=
      f.grounded_batch hkinds (by simp) (.inl hcontainer)
    rcases hgrounded before op after heq id hid with hknown | hbefore
    · exact hknown
    · have hnew : id ∈ f.ids := by
        rw [← f.inserted_batch site none, heq, Batch.inserted_append]
        exact List.mem_append_left _ hbefore
      exact (hs.free id hnew).trans (ht.free id hnew).symm
  inserted id hid := by
    rw [f.inserted_batch] at hid
    exact (hs.free id hid).trans (ht.free id hid).symm
  strings id hid := by
    have hnew := (f.valued_sublist site none).subset hid
    have hs' : s.strings[id]? = none := hs.string?_eq_none hnew
    have ht' : t.strings[id]? = none := ht.string?_eq_none hnew
    rw [Std.ExtTreeMap.contains_eq_isSome_getElem?, Std.ExtTreeMap.contains_eq_isSome_getElem?,
      hs', ht']

namespace Conversion

variable {s t s' t' : Store}

end Conversion

namespace Session

open Conversion

variable {session session' : Session} {s t : Store} {trigger : LinkId}

end Session

end LinkGraph
