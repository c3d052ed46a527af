import DiveLink.Device
import DiveLink.Proofs.Answers
import DiveLink.Proofs.Entries

set_option autoImplicit false

namespace DiveLink.Conversation
open Dialogue Exchange

/-- The acts by which the dive of an entry was requested, answered and acknowledged. -/
def Fetches (listener : Option String) (entry data : Bytes) (fetch : List Act) : Prop :=
  ∃ low high rest start code payload bs, entry = low :: high :: rest ∧
    payload.length ≤ Packet.maxPayload ∧ Bulk.Carries data bs ∧
    fetch = askBulkActs listener (.dive low high) start (Packet.wire code payload) data bs

/-- What is handed over of an entry and its dive: the record, and the fingerprint in it. -/
def delivery (layout : Layout) (entry data : Bytes) : Delivery :=
  ⟨[0xDC, 0xDC, layout.version.number, .ofNat layout.entryLength] ++ entry ++ data,
    (entry.drop layout.fingerprintOffset).take Fingerprint.size⟩

theorem delivery_assemble (layout : Layout) (entry data : Bytes) :
    Delivery.mk (DiveRecord.assemble layout entry data)
      ((entry.drop layout.fingerprintOffset).take Fingerprint.size) = delivery layout entry data :=
  rfl

/-- The request that has `j` earlier ones. -/
structure Requested (receiver : Receiver) (made : List Delivery) (seen : List Act) (j : Nat)
    (entry request : Bytes) : Prop where
  number : ∃ low high rest, entry = low :: high :: rest ∧
    request = Packet.wire CommandCode.dive [low, high]
  issued : ∃ before taken failed after, seen = before ++ .sent request taken failed :: after ∧
    (Act.diveRequests before).length = j ∧ (Act.deliveries before).length = j
  wanted : ∀ k < j, receiver (made ++ (Act.deliveries seen).take (k + 1)) = .more

structure Delivered (listener : Option String) (layout : Layout) (seen : List Act) (j : Nat)
    (entry data : Bytes) (dive : Delivery) : Prop where
  fetched : ∃ before fetch after, seen = before ++ fetch ++ .delivered dive :: after ∧
    Fetches listener entry data fetch ∧
    (Act.diveRequests before).length = j ∧ (Act.deliveries before).length = j
  valid : Dive.validate layout entry data = .ok ()
  content : dive = delivery layout entry data

/-- Requests and deliveries follow the entries, one by one. -/
structure Enumerates (listener : Option String) (layout : Layout) (receiver : Receiver)
    (made : List Delivery) (entries : List Bytes) (seen : List Act) : Prop where
  bounded : (Act.diveRequests seen).length ≤ entries.length
  requested : ∀ j request, (Act.diveRequests seen)[j]? = some request →
    ∃ entry, entries[j]? = some entry ∧ Requested receiver made seen j entry request
  delivered : ∀ j dive, (Act.deliveries seen)[j]? = some dive →
    ∃ entry data, entries[j]? = some entry ∧ Delivered listener layout seen j entry data dive

variable {listener : Option String} {layout : Layout} {receiver : Receiver}
  {made : List Delivery} {entries : List Bytes} {head seen : List Act}

theorem Requested.after {j m : Nat} {entry request : Bytes}
    (later : Requested receiver (made ++ Act.deliveries head) seen j entry request)
    (requests : (Act.diveRequests head).length = m) (deliveries : (Act.deliveries head).length = m)
    (wanted : ∀ k < m, receiver (made ++ (Act.deliveries head).take (k + 1)) = .more) :
    Requested receiver made (head ++ seen) (m + j) entry request where
  number := later.number
  issued := by
    obtain ⟨before, taken, failed, after, split, first, second⟩ := later.issued
    refine ⟨head ++ before, taken, failed, after, ?_, ?_, ?_⟩
    · rw [split, List.append_assoc]
    · rw [Act.diveRequests_append, List.length_append, requests, first]
    · rw [Act.deliveries_append, List.length_append, deliveries, second]
  wanted := by
    intro k less
    rw [Act.deliveries_append]
    by_cases early : k < m
    · rw [List.take_append_of_le_length (by omega)]
      exact wanted k early
    · have h := later.wanted (k - m) (by omega)
      rw [List.append_assoc] at h
      rw [List.take_append, List.take_of_length_le (by omega), deliveries]
      have shift : k + 1 - m = k - m + 1 := by omega
      rwa [shift]

theorem Delivered.after {j m : Nat} {entry data : Bytes} {dive : Delivery}
    (later : Delivered listener layout seen j entry data dive)
    (requests : (Act.diveRequests head).length = m)
    (deliveries : (Act.deliveries head).length = m) :
    Delivered listener layout (head ++ seen) (m + j) entry data dive where
  fetched := by
    obtain ⟨before, fetch, after, split, fetches, first, second⟩ := later.fetched
    refine ⟨head ++ before, fetch, after, ?_, fetches, ?_, ?_⟩
    · rw [split, List.append_assoc, List.append_assoc, List.append_assoc]
    · rw [Act.diveRequests_append, List.length_append, requests, first]
    · rw [Act.deliveries_append, List.length_append, deliveries, second]
  valid := later.valid
  content := later.content

theorem Requested.before {j : Nat} {entry request : Bytes}
    (first : Requested receiver made head j entry request)
    (shown : j ≤ (Act.deliveries head).length) :
    Requested receiver made (head ++ seen) j entry request where
  number := first.number
  issued := by
    obtain ⟨before, taken, failed, after, split, counts⟩ := first.issued
    exact ⟨before, taken, failed, after ++ seen, by rw [split, List.append_assoc]; rfl, counts⟩
  wanted := by
    intro k less
    rw [Act.deliveries_append, List.take_append_of_le_length (by omega)]
    exact first.wanted k less

theorem Delivered.before {j : Nat} {entry data : Bytes} {dive : Delivery}
    (first : Delivered listener layout head j entry data dive) :
    Delivered listener layout (head ++ seen) j entry data dive where
  fetched := by
    obtain ⟨before, fetch, after, split, rest⟩ := first.fetched
    exact ⟨before, fetch, after ++ seen, by rw [split, List.append_assoc (before ++ fetch)]; rfl, rest⟩
  valid := first.valid
  content := first.content

namespace Enumerates

theorem plain (deliveries : Act.deliveries seen = []) (requests : Act.diveRequests seen = []) :
    Enumerates listener layout receiver made entries seen where
  bounded := by simp [requests]
  requested := by simp [requests]
  delivered := by simp [deliveries]

theorem more (known : Enumerates listener layout receiver made entries seen) (older : List Bytes) :
    Enumerates listener layout receiver made (entries ++ older) seen where
  bounded := by
    rw [List.length_append]
    exact Nat.le_add_right_of_le known.bounded
  requested := by
    intro j request found
    obtain ⟨entry, place, h⟩ := known.requested j request found
    obtain ⟨inside, -⟩ := List.getElem?_eq_some_iff.1 place
    exact ⟨entry, (List.getElem?_append_left inside).trans place, h⟩
  delivered := by
    intro j dive found
    obtain ⟨entry, data, place, h⟩ := known.delivered j dive found
    obtain ⟨inside, -⟩ := List.getElem?_eq_some_iff.1 place
    exact ⟨entry, data, (List.getElem?_append_left inside).trans place, h⟩

theorem append {newer older : List Bytes}
    (first : Enumerates listener layout receiver made newer head)
    (requests : (Act.diveRequests head).length = newer.length)
    (deliveries : (Act.deliveries head).length = newer.length)
    (wanted : ∀ k < newer.length, receiver (made ++ (Act.deliveries head).take (k + 1)) = .more)
    (later : Enumerates listener layout receiver (made ++ Act.deliveries head) older seen) :
    Enumerates listener layout receiver made (newer ++ older) (head ++ seen) where
  bounded := by
    rw [Act.diveRequests_append, List.length_append, requests, List.length_append]
    exact Nat.add_le_add_left later.bounded _
  requested := by
    intro j request found
    rw [Act.diveRequests_append] at found
    by_cases early : j < newer.length
    · rw [List.getElem?_append_left (by omega)] at found
      obtain ⟨entry, place, h⟩ := first.requested j request found
      exact ⟨entry, (List.getElem?_append_left early).trans place, h.before (by omega)⟩
    · obtain ⟨i, rfl⟩ := Nat.exists_eq_add_of_le (Nat.le_of_not_lt early)
      rw [List.getElem?_append_right (by omega), requests, Nat.add_sub_cancel_left] at found
      obtain ⟨entry, place, h⟩ := later.requested i request found
      refine ⟨entry, ?_, h.after requests deliveries wanted⟩
      rwa [List.getElem?_append_right (by omega), Nat.add_sub_cancel_left]
  delivered := by
    intro j dive found
    rw [Act.deliveries_append] at found
    by_cases early : j < newer.length
    · rw [List.getElem?_append_left (by omega)] at found
      obtain ⟨entry, data, place, h⟩ := first.delivered j dive found
      exact ⟨entry, data, (List.getElem?_append_left early).trans place, h.before⟩
    · obtain ⟨i, rfl⟩ := Nat.exists_eq_add_of_le (Nat.le_of_not_lt early)
      rw [List.getElem?_append_right (by omega), deliveries, Nat.add_sub_cancel_left] at found
      obtain ⟨entry, data, place, h⟩ := later.delivered i dive found
      refine ⟨entry, data, ?_, h.after requests deliveries⟩
      rwa [List.getElem?_append_right (by omega), Nat.add_sub_cancel_left]

theorem after_plain (later : Enumerates listener layout receiver made entries seen)
    (deliveries : Act.deliveries head = []) (requests : Act.diveRequests head = []) :
    Enumerates listener layout receiver made entries (head ++ seen) := by
  have first : Enumerates listener layout receiver made [] head := plain deliveries requests
  refine append first (by simp [requests]) (by simp [deliveries]) (fun _ h => nomatch h) ?_
  rwa [deliveries, List.append_nil]

theorem request {low high : UInt8} {rest : Bytes} {ms taken : Nat} {failed : Bool}
    (deliveries : Act.deliveries seen = []) (requests : Act.diveRequests seen = []) :
    Enumerates listener layout receiver made [low :: high :: rest]
      (.paused ms :: .sent (Command.dive low high).wire taken failed :: seen) := by
  have code : (Command.dive low high).wire[4]? = some CommandCode.dive := Command.wire_code _
  have one : Act.diveRequests (.paused ms :: .sent (Command.dive low high).wire taken failed ::
      seen) = [(Command.dive low high).wire] := by
    simp [Act.diveRequest?, code, requests]
  have none : Act.deliveries (.paused ms :: .sent (Command.dive low high).wire taken failed ::
      seen) = [] := by
    simp [Act.delivery?, deliveries]
  refine ⟨by simp [one], ?_, by simp [none]⟩
  intro j request found
  rw [one] at found
  cases j with
  | zero =>
    cases found
    refine ⟨_, rfl, ⟨low, high, rest, rfl, rfl⟩, ?_,
      fun k none => absurd none (Nat.not_lt_zero k)⟩
    exact ⟨[.paused ms], taken, failed, seen, rfl, rfl, rfl⟩
  | succ j => cases found

end Enumerates

theorem Fetches.requests {entry data : Bytes} (fetches : Fetches listener entry data seen) :
    (Act.diveRequests seen).length = 1 ∧ Act.deliveries seen = [] := by
  obtain ⟨low, high, rest, start, code, payload, bs, -, -, -, rfl⟩ := fetches
  simp [Command.code]

theorem downloadDive_bind {low high : UInt8} (rest buffer : Bytes) (start : Progress) :
    downloadDive layout (low :: high :: rest) buffer start =
      askBulk (.dive low high) buffer start >>= fun all =>
        Dialogue.ofExcept (Dive.validate layout (low :: high :: rest) all.1) >>= fun _ =>
          .done (DiveRecord.assemble layout (low :: high :: rest) all.1, all.1, all.2) := rfl

theorem course_downloadDive {entry buffer record data : Bytes} {start now : Progress}
    (course : (downloadDive layout entry buffer start).Course listener receiver made seen
      (.ok (record, data, now))) :
    Fetches listener entry data seen ∧ Dive.validate layout entry data = .ok () ∧
      record = DiveRecord.assemble layout entry data := by
  match entry with
  | [] | [_] => cases course
  | low :: high :: rest =>
    rw [downloadDive_bind] at course
    rcases Course.of_bind course with ⟨⟨data, last⟩, fetch, none, asked, checked, rfl⟩ | ⟨why, -, h⟩
    · obtain ⟨-, code, payload, bs, fit, carries, rfl⟩ := course_askBulk asked
      rcases Course.of_ofExcept checked with ⟨_, valid, ended⟩ | ⟨-, why, -, h⟩
      · cases ended
        refine ⟨?_, valid, rfl⟩
        rw [List.append_nil]
        exact ⟨low, high, rest, start, code, payload, bs, rfl, fit, carries, rfl⟩
      · cases h
    · cases h

theorem course_downloadDive_any {entry buffer : Bytes} {start : Progress}
    {result : Except (Failure ScriptCall) (Bytes × Bytes × Progress)}
    (course : (downloadDive layout entry buffer start).Course listener receiver made seen result) :
    Act.deliveries seen = [] ∧ Enumerates listener layout receiver made [entry] seen := by
  match entry with
  | [] | [_] =>
    cases course
    exact ⟨rfl, .plain rfl rfl⟩
  | low :: high :: rest =>
    rw [downloadDive_bind] at course
    have checks (all : Bytes × Progress) :
        (Dialogue.ofExcept (Dive.validate layout (low :: high :: rest) all.1) >>= fun _ =>
          Dialogue.done (DiveRecord.assemble layout (low :: high :: rest) all.1, all.1,
            all.2)).Keeps .plain :=
      (keeps_ofExcept _).bind fun _ => trivial
    obtain ⟨taken, failed, later, rfl, deliveries, requests⟩ := course_request checks course
    exact ⟨by simp [Act.delivery?, deliveries], .request deliveries requests⟩

theorem Enumerates.served {entry data : Bytes}
    (requested : Enumerates listener layout receiver made [entry] seen)
    (fetches : Fetches listener entry data seen)
    (valid : Dive.validate layout entry data = .ok ()) :
    Enumerates listener layout receiver made [entry]
      (seen ++ [.delivered (delivery layout entry data)]) := by
  have none := fetches.requests.2
  have one : Act.deliveries (seen ++ [.delivered (delivery layout entry data)]) =
      [delivery layout entry data] := by
    simp [none, Act.delivery?]
  have same : Act.diveRequests (seen ++ [.delivered (delivery layout entry data)]) =
      Act.diveRequests seen := by
    simp [Act.diveRequest?]
  refine ⟨same ▸ requested.bounded, ?_, ?_⟩
  · intro j request found
    rw [same] at found
    obtain ⟨entry', place, h⟩ := requested.requested j request found
    obtain ⟨inside, -⟩ := List.getElem?_eq_some_iff.1 place
    simp only [List.length_singleton] at inside
    exact ⟨entry', place, h.before (by omega)⟩
  · intro j dive' found
    rw [one] at found
    cases j with
    | zero =>
      cases found
      exact ⟨entry, data, rfl, ⟨⟨[], seen, [], by simp, fetches, rfl, rfl⟩, valid, rfl⟩⟩
    | succ j => cases found

theorem course_downloadDives {buffer : Bytes} {start : Progress}
    {result : Except (Failure ScriptCall) Unit}
    (fits : ∀ entry ∈ entries, layout.fingerprintOffset + Fingerprint.size ≤ entry.length)
    (course : (downloadDives layout entries buffer start).Course listener receiver made seen
      result) :
    Enumerates listener layout receiver made entries seen := by
  induction entries generalizing buffer start made seen with
  | nil =>
    cases course
    exact .plain rfl rfl
  | cons entry older ih =>
    rw [downloadDives] at course
    rcases Course.of_bind course with
      ⟨⟨record, data, now⟩, fetch, later, fetched, served, rfl⟩ | ⟨why, failed, -⟩
    · obtain ⟨quiet, requested⟩ := course_downloadDive_any fetched
      obtain ⟨fetches, valid, rfl⟩ := course_downloadDive fetched
      have fit := fits entry List.mem_cons_self
      dsimp only at served
      rw [quiet, List.append_nil, recordFingerprint_assemble fit, Dialogue.ofExcept_ok,
        done_bind] at served
      cases served with
      | @deliver _ _ _ later _ rest =>
        have first := requested.served fetches valid
        have one : Act.deliveries (fetch ++ [.delivered (delivery layout entry data)]) =
            [delivery layout entry data] := by
          simp [quiet, Act.delivery?]
        rw [delivery_assemble, List.append_cons]
        rw [delivery_assemble] at rest
        cases reply : receiver (made ++ [delivery layout entry data]) with
        | stop =>
          rw [reply] at rest
          cases rest
          rw [List.append_nil]
          exact first.more older
        | more =>
          rw [reply] at rest
          refine first.append ?_ ?_ ?_ ?_
          · simp [fetches.requests.1, Act.diveRequest?]
          · rw [one]
            rfl
          · intro k less
            rw [one, List.take_of_length_le (by simp), reply]
          · rw [one]
            exact ih (fun e mem => fits e (List.mem_cons_of_mem _ mem)) rest
    · exact (course_downloadDive_any failed).2.more older

/-- What was asked before the dives, and answered: what the device is, and its logbook. -/
def Opens (listener : Option String) (identity : Identity) (table : Bytes) (opening : List Act) :
    Prop :=
  ∃ code block code' payload bs, block.length ≤ Packet.maxPayload ∧
    Identity.read block = .ok identity ∧ payload.length ≤ Packet.maxPayload ∧
    Bulk.Carries table bs ∧
    opening = listener.toList.map (.told · (.progress .start)) ++
      askActs .version (Packet.wire code block) ++
      askBulkActs listener (.logbook identity.layout.logbookCode) .start
        (Packet.wire code' payload) table bs

theorem version_ne_dive : Command.version.code ≠ CommandCode.dive := by decide

theorem downloadNew_eq (stored : Fingerprint) :
    downloadNew stored = announce (.progress .start) (ask .version >>= fun block =>
      Dialogue.ofExcept (Identity.read block) >>= fun identity =>
        askBulk (.logbook identity.layout.logbookCode) [] .start >>= fun logbook =>
          Dialogue.ofExcept (Logbook.pending identity.layout stored logbook.1) >>= fun entries =>
            announce (.progress (.forDives logbook.2.current (.ofNat entries.length)))
              (downloadDives identity.layout entries []
                (.forDives logbook.2.current (.ofNat entries.length)))) := by
  simp only [downloadNew, readIdentity, bind_assoc, done_bind]

theorem course_downloadNew {stored : Fingerprint} {result : Except (Failure ScriptCall) Unit}
    (course : (downloadNew stored).Course listener receiver made seen result) :
    (Act.deliveries seen = [] ∧ Act.diveRequests seen = []) ∨
      ∃ identity table entries opening later, seen = opening ++ later ∧
        Opens listener identity table opening ∧
        Logbook.pending identity.layout stored table = .ok entries ∧
        Enumerates listener identity.layout receiver made entries seen := by
  rw [downloadNew_eq] at course
  cases course with
  | @announce _ _ _ later _ course =>
    rcases Course.of_bind course with ⟨block, first, later, asked, judged, rfl⟩ | ⟨why, failed, -⟩
    · obtain ⟨fit, code, rfl⟩ := course_ask asked
      rcases Course.of_ofExcept judged with ⟨identity, identified, loaded⟩ | ⟨rfl, -⟩
      · have usable := Identity.read_usable identified
        have other : (Command.logbook identity.layout.logbookCode).code ≠ CommandCode.dive :=
          usable.other
        rcases Course.of_bind loaded with
          ⟨⟨table, last⟩, second, later, asked', scanned, rfl⟩ | ⟨why, failed, -⟩
        · obtain ⟨-, code', payload, bs, fit', carries, rfl⟩ := course_askBulk asked'
          rcases Course.of_ofExcept scanned with ⟨entries, pending, told⟩ | ⟨rfl, -⟩
          · dsimp only at told
            generalize Progress.forDives last.current (.ofNat entries.length) = start at told
            cases told with
            | @announce _ _ _ later _ served =>
              have fits : ∀ entry ∈ entries,
                  identity.layout.fingerprintOffset + Fingerprint.size ≤ entry.length := by
                intro entry mem
                rw [Logbook.length_mem_pending pending mem]
                exact usable.fingerprint
              have dives := course_downloadDives fits served
              simp only [deliveries_askActs, deliveries_askBulkActs, List.append_nil] at dives
              refine .inr ⟨identity, table, entries, _,
                listener.toList.map (.told · (.progress start)) ++ later, ?_, ⟨code, block, code', payload, bs,
                  fit, identified, fit', carries, rfl⟩, pending, ?_⟩
              · simp only [List.append_assoc]
              · refine .after_plain ?_ (by simp) (by simp)
                refine .after_plain ?_ (by simp) (by simp [version_ne_dive])
                refine .after_plain ?_ (by simp) (by simp [other])
                exact .after_plain dives (by simp) (by simp)
          · left
            simp [other, version_ne_dive]
        · left
          obtain ⟨deliveries, requests⟩ := failed.plain (plain_askBulk other _ _)
          simp [deliveries, requests, version_ne_dive]
      · left
        simp [version_ne_dive]
    · left
      obtain ⟨deliveries, requests⟩ := failed.plain (plain_ask version_ne_dive)
      simp [deliveries, requests]

end DiveLink.Conversation
