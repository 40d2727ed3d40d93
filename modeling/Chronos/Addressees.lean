import Chronos.OptOut

namespace Chronos

open ReadCommitted ReadCommitted.Prog

/-!
# Who is sent a reminder

A delivery reads the booking, then its client, and mails the address it has read; meanwhile everybody
else goes on.  No task gives a booking to another client, so the address is one of the client whose
booking it still is.

* `owner_process` — a delivery mails an address it has read of the booking's client.
* `reminders_reach_owners` — no reminder goes to an address of somebody else.
-/

/-! ### What a delivery knows of an address -/

section Delivery

variable {owner : BookingId → ClientId} {address : ClientId → String → Prop} {id : ReminderId}
variable {isConfigured : Bool}

/-- The address in a row that is read of a client is the client's. -/
def AddressRead (address : ClientId → String → Prop) : (a : Ask) → a.Answer → Prop
  | .selectClient y, found => ∀ client email, found = .ok (some client) → client.email = some email →
      address y email
  | _, _ => True

/-- A delivery of reminder `id` mails that reminder, to an address of its owner. -/
def MailsOwner (owner : BookingId → ClientId) (address : ClientId → String → Prop) (id : ReminderId) :
    Ask → Prop
  | .sendEmail receiver k => k = id ∧ address (owner id.1) receiver
  | _ => True

/-- What a delivery of reminder `id` may send and ask. -/
def ownerDialogue (owner : BookingId → ClientId) (address : ClientId → String → Prop)
    (id : ReminderId) : Dialogue Stmt.Rows Ask.Answer where
  sends := anyFacts.dialogue.sends
  hears := OwnerRead owner
  asks a := anyFacts.dialogue.asks a ∧ MailsOwner owner address id a
  learns := AddressRead address

/-- `client?.email` is the address in the row. -/
theorem email_of_clientEmail {client : Client} {email : String}
    (h : clientEmail (some client) = some email) : client.email = some email := by
  have htruthy : truthy client.email = some email := h
  cases hemail : client.email with
  | none =>
    rw [hemail] at htruthy
    cases htruthy
  | some text =>
    rw [hemail] at htruthy
    rw [truthy_some htruthy]

theorem owner_process : (process isConfigured (some id)).Follows (ownerDialogue owner address id) := by
  refine AllowsDelivery.process ⟨fun _ h => h, ⟨trivial, trivial⟩, fun _ => ⟨trivial, trivial⟩, ?_⟩
  intro booking _ client receiver hb _ _ _ hc hemail
  refine ⟨trivial, rfl, ?_⟩
  rw [← hb booking rfl]
  exact hc client receiver rfl (email_of_clientEmail hemail)

end Delivery

/-- What a task may send and ask. -/
def ownerTask (owner : BookingId → ClientId) (address : ClientId → String → Prop) :
    Task → Dialogue Stmt.Rows Ask.Answer
  | .process _ (some id) => ownerDialogue owner address id
  | _ => anyFacts.dialogue

theorem follows_ownerTask {owner : BookingId → ClientId} {address : ClientId → String → Prop}
    {fromColumn : Instant → Except JsError Instant} (task : Task) :
    (task.program fromColumn).Follows (ownerTask owner address task) := by
  cases task with
  | process isConfigured reminderId =>
    cases reminderId with
    | none => exact trivial
    | some id => exact owner_process
  | _ => exact follows_task (admits_anyFacts _) fun _ _ _ _ _ => trivial

/-! ### Every run -/

section Runs

variable {C ι : Type} [DecidableEq C] [DecidableEq ι] {cat : Catalog}
variable {owner : BookingId → ClientId} {address : ClientId → String → Prop} {tasks : ι → Task}
variable {fromColumn : Instant → Except JsError Instant} {d₀ : Database} {w : Workers C ι}

/-- The ids of bookings are drawn for their owners, and the rows of clients hold their addresses. -/
structure Addressed (owner : BookingId → ClientId) (address : ClientId → String → Prop)
    (w : Workers C ι) (l : Label Ask.Answer Nat JsError C ι) : Prop where
  draws : ∀ s ok err, w.prog l.thread = .stmt s ok err → l.env.fault = none →
    DrawsFor owner s l.env.fresh
  reads : ∀ y client email, l.env.answer (.selectClient y) = .ok (some client) →
    client.email = some email → address y email

omit [DecidableEq C] [DecidableEq ι] in
theorem allows_of_addressed {l : Label Ask.Answer Nat JsError C ι} (h : Addressed owner address w l) :
    w.Allows (chronos cat) (fun i => ownerTask owner address (tasks i))
      (fun _ s o _ => DrawsFor owner s o) l := by
  refine ⟨fun s ok err hprog hfault _ => h.draws s ok err hprog hfault, fun a k _ => ?_⟩
  unfold ownerTask
  split
  · cases a with
    | selectClient y => exact h.reads y
    | _ => exact trivial
  · exact learns_anyFacts a _

omit [DecidableEq ι] in
theorem vetting_owner (cat : Catalog) (owner : BookingId → ClientId)
    (address : ClientId → String → Prop) (tasks : ι → Task) (x : ClientId) :
    Vetting (chronos cat) (fun i => ownerTask owner address (tasks i))
      (fun _ s o _ => DrawsFor owner s o) (Database.OwnedBy owner)
      (fun _ _ w => w.Spares owner x False) (fun _ => []) fun _ _ _ => True := by
  -- There are no late deliveries here: bookings stay with their owners.
  refine vetting_spares cat (fun _ => False) (fun i s r h => ?_) fun _ _ _ _ hlate => hlate.elim
  unfold ownerTask
  split
  · exact h
  · exact hears_anyFacts s r

/-- **Reminders reach their owners.**  Whatever is at work over whichever connections, with anything
    failing: when a delivery hands an e-mail about a booking to the provider, it is addressed to an
    address that the client of that booking had when it was read. -/
theorem reminders_reach_owners (howned : d₀.OwnedBy owner)
    (h : Reaches (chronos cat) (Addressed owner address)
      (World.init d₀ fun i => (tasks i).program fromColumn) w)
    {i : ι} (hdelivers : (tasks i).Delivers) {receiver : String} {id : ReminderId}
    {k : ResendReply → Program Unit} (hsends : w.prog i = .ask (.sendEmail receiver id) k) :
    ∀ b, w.db.bookings.lookup id.1 = some b → address b.clientId receiver := by
  have hinit : (World.init d₀ fun i => (tasks i).program fromColumn : Workers C ι).Vetted (chronos cat)
      (fun i => ownerTask owner address (tasks i)) (Database.OwnedBy owner)
      (fun _ _ w => w.Spares owner (owner id.1) False) fun _ => [] :=
    vetted_init howned fun i => follows_ownerTask (tasks i)
  have hvetted := World.Vetted.reaches (vetting_owner cat owner address tasks (owner id.1))
    (fun _ _ hl => allows_of_addressed hl) hinit h
  have hprog := hvetted.prog i
  obtain ⟨isConfigured, id', htask⟩ := hdelivers
  rw [hsends, htask] at hprog
  obtain ⟨-, rfl, haddress⟩ := hprog.1
  intro b hb
  rw [hvetted.db id.1 b hb]
  exact haddress

/-! #### The reminder of client `5` -/

/-- The delivery comes to its e-mail, and the booking is that of client `5`, whose address it is. -/
theorem reminders_reach_owners_sample : ∃ w : Workers Unit Unit,
    (∃ k, w.prog () = .ask (.sendEmail "client@example.org" (1, 60)) k) ∧
      ∀ b, w.db.bookings.lookup 1 = some b → b.clientId = 5 := by
  have hrun : ∃ w : Workers Unit Unit, World.run (chronos sampleCatalog) insertsNothing startDelivery
      (List.replicate 8 ⟨(), (), readsClient5⟩) = some w ∧
      ∃ k, w.prog () = .ask (.sendEmail "client@example.org" (1, 60)) k :=
    ⟨_, rfl, _, rfl⟩
  obtain ⟨w, hw, k, hsends⟩ := hrun
  have hreach : Reaches (chronos sampleCatalog)
      (Addressed (fun _ => 5) fun y email => email = "client@example.org" → y = 5) startDelivery w := by
    refine reaches_of_run (fun w l hl hcheck => ?_) hw
    rw [List.eq_of_mem_replicate hl]
    refine ⟨drawsFor_of_check hcheck, fun y client email hanswer _ _ => ?_⟩
    have hread : (if y = 5 then .ok (some ⟨some "client@example.org", false⟩)
        else .error (jsError "timeout") : Except JsError (Option Client)) = .ok (some client) := hanswer
    split at hread
    · next hy => exact hy
    · cases hread
  have hdelivers : (oneDelivery ()).Delivers := ⟨true, (1, 60), rfl⟩
  exact ⟨w, ⟨k, hsends⟩, fun b hb =>
    reminders_reach_owners ownedBy_sampleRemind hreach hdelivers hsends b hb rfl⟩

end Runs

end Chronos
