import MacpControlPlane.Lib.Columns
import MacpControlPlane.Lib.Table
import MacpControlPlane.Lib.Trim
import MacpControlPlane.Webhooks.WebhookDelivery

/-!
# Webhook subscriptions (`controllers/webhook.controller.ts`, `webhooks/webhook.repository.ts`, `webhook.service.ts`)

The requests that write `webhooks` and read it back, `fireEvent` and `retryPending`, which start a call of
`deliverWithTracking` for a row they have read, and the POSTs of these calls.  Any number of them run at once, and every
query is a step of its own.  How often a call posts and what it records is in `WebhookDelivery`; here the calls post and
record in any order.
-/

namespace MacpControlPlane.WebhookSubscriptions

open Js WebhookDelivery

variable {D : Type}

/-! ### Rows, views and bodies -/

/-- A row of `webhooks`. -/
structure Webhook where
  id : String
  url : String
  events : List String
  secret : String
  active : Bool
  createdAt : String
  updatedAt : String
  deriving DecidableEq

structure WebhookView where
  id : String
  url : String
  events : List String
  active : Bool
  createdAt : String
  updatedAt : String
  hasSecret : Bool
  deriving DecidableEq

def toWebhookView (row : Webhook) : WebhookView where
  id := row.id
  url := row.url
  events := row.events
  active := row.active
  createdAt := row.createdAt
  updatedAt := row.updatedAt
  hasSecret := 0 < row.secret.length

structure WebhookPayload (D : Type) where
  event : String
  runId : String
  status : String
  timestamp : String
  data : Option D := none
  deriving DecidableEq

/-- A row of `webhook_deliveries`; `outcome` holds the columns that the deliveries write. -/
structure DeliveryRow (D : Type) where
  id : String
  webhookId : String
  event : String
  runId : String
  payload : WebhookPayload D
  createdAt : String
  outcome : WebhookDelivery.Delivery := {}
  deriving DecidableEq

structure CreateWebhookDto where
  url : String
  events : Option (List String) := none
  secret : String

structure UpdateWebhookDto where
  url : Option String := none
  events : Option (List String) := none
  secret : Option String := none
  active : Option Bool := none

/-- What comes from the libraries: the two checks, the signature, and a payload as text and as `jsonb` returns it. -/
structure Env (D : Type) where
  isUrl : String → Bool
  isUuid : String → Bool
  hmac : String → String → String
  stringify : WebhookPayload D → String
  jsonb : WebhookPayload D → WebhookPayload D

/-- `@IsNotEmpty()` and `@Matches(/\S/)` -/
def validSecret (secret : String) : Bool := secret ≠ "" && secret.toList.any fun c => !isSpace c

def CreateWebhookDto.valid (env : Env D) (body : CreateWebhookDto) : Bool :=
  env.isUrl body.url && validSecret body.secret

def UpdateWebhookDto.valid (env : Env D) (body : UpdateWebhookDto) : Bool :=
  body.url.all env.isUrl && body.secret.all validSecret

/-- What the column of the secret stores: a longer text throws, unless the rest of it is spaces, and so does a NUL. -/
def varchar255 (s : String) : Option String := Columns.stored 255 s

/-- The `SET` of `update` -/
def Webhook.update (row : Webhook) (fields : UpdateWebhookDto) (now : String) : Webhook :=
  { row with
    url := fields.url.getD row.url
    events := fields.events.getD row.events
    secret := fields.secret.getD row.secret
    active := fields.active.getD row.active
    updatedAt := now }

/-- `wh.events.length === 0 || wh.events.includes(payload.event)` -/
def Webhook.subscribes (row : Webhook) (event : String) : Bool := row.events.isEmpty || row.events.contains event

/-! ### Requests, events and calls -/

inductive Response where
  | webhook (view : Option WebhookView)
  | webhooks (views : List WebhookView)
  | noContent
  | badRequest
  | internalError
  deriving DecidableEq

/-- The arguments of a call of `deliverWithTracking`. -/
structure Call (D : Type) where
  deliveryId : String
  webhookId : String
  url : String
  secret : String
  payload : WebhookPayload D
  startAttempt : Nat := 0
  deriving DecidableEq

structure Post where
  url : String
  signature : String
  event : String
  body : String
  deriving DecidableEq

/-- `readingBack` holds the ids of the requests that have written and not read back yet; a call of `fireEvent` and one
of `retryPending` have some rows before them. -/
structure State (D : Type) where
  webhooks : List Webhook := []
  deliveries : List (DeliveryRow D) := []
  readingBack : List String := []
  firing : List (WebhookPayload D × List Webhook) := []
  retrying : List (List (DeliveryRow D)) := []
  calls : List (Call D) := []
  posts : List Post := []
  responses : List Response := []
  deriving DecidableEq

inductive Action (D : Type) where
  | createWebhook (body : CreateWebhookDto) (id createdAt updatedAt : String)
  | listWebhooks
  | updateWebhook (id : String) (body : UpdateWebhookDto) (now : String)
  | deleteWebhook (id : String)
  /-- `findById` of the `i`-th request that has written. -/
  | findById (i : Nat)
  /-- A call of `fireEvent` reads its webhooks. -/
  | listActive (payload : WebhookPayload D)
  /-- It inserts the delivery of its next webhook and starts the call. -/
  | createDelivery (i : Nat) (id now : String)
  /-- The insert throws. -/
  | abandon (i : Nat)
  /-- A call of `retryPending` reads its deliveries. -/
  | listPending
  /-- It reads the webhook of the next one, and starts the call if there is one. -/
  | retry (i : Nat)
  | post (i : Nat)
  | markDelivered (i : Nat) (responseStatus : Nat) (now : String)
  | markFailed (i : Nat) (attempt : Nat) (message now : String)

def State.respond (s : State D) (response : Response) : State D := { s with responses := s.responses ++ [response] }

def State.find (s : State D) (id : String) : Option Webhook := Table.get Webhook.id s.webhooks id

/-- The update of the delivery with an id. -/
def State.record (s : State D) (id : String) (f : WebhookDelivery.Delivery → WebhookDelivery.Delivery) :
    State D :=
  { s with
    deliveries := s.deliveries.map fun row => if row.id = id then { row with outcome := f row.outcome } else row }

/-- The columns of a new webhook, or nothing if one of them does not take its value. -/
def CreateWebhookDto.columns (body : CreateWebhookDto) : Option CreateWebhookDto :=
  if Columns.noNul body.url && (body.events.getD []).all Columns.noNul then
    (varchar255 body.secret).map fun secret => { body with secret }
  else none

/-- `POST /webhooks`, up to `findById` -/
def State.createWebhook (env : Env D) (s : State D) (body : CreateWebhookDto) (id createdAt updatedAt : String) :
    Option (State D) :=
  if body.valid env then
    match body.columns with
    | none => some (s.respond .internalError)
    | some fields =>
      if (s.find id).isSome then none
      else some { s with
        webhooks := s.webhooks ++
          [{ id, url := fields.url, events := fields.events.getD [], secret := fields.secret, active := true, createdAt,
             updatedAt }]
        readingBack := s.readingBack ++ [id] }
  else some (s.respond .badRequest)

/-- The columns of an update, or nothing if one of them does not take its value. -/
def UpdateWebhookDto.columns (body : UpdateWebhookDto) : Option UpdateWebhookDto :=
  if body.url.all Columns.noNul && body.events.all fun events => events.all Columns.noNul then
    match body.secret with
    | none => some body
    | some secret => (varchar255 secret).map fun secret => { body with secret := some secret }
  else none

/-- `PATCH /webhooks/:id`, up to `findById` -/
def State.updateWebhook (env : Env D) (s : State D) (id : String) (body : UpdateWebhookDto) (now : String) : State D :=
  if env.isUuid id && body.valid env then
    match body.columns with
    | none => s.respond .internalError
    | some fields =>
      { s with
        webhooks := s.webhooks.map fun row => if row.id = id then row.update fields now else row
        readingBack := s.readingBack ++ [id] }
  else s.respond .badRequest

/-- `DELETE /webhooks/:id`: the deliveries go with the webhook. -/
def State.deleteWebhook (env : Env D) (s : State D) (id : String) : State D :=
  if env.isUuid id then
    { s with
      webhooks := Table.remove Webhook.id s.webhooks id
      deliveries := s.deliveries.filter fun row => row.webhookId ≠ id }.respond .noContent
  else s.respond .badRequest

/-- The call for a delivery whose webhook has been read. -/
def Webhook.call (row : Webhook) (deliveryId : String) (payload : WebhookPayload D) (startAttempt : Nat) : Call D where
  deliveryId := deliveryId
  webhookId := row.id
  url := row.url
  secret := row.secret
  payload := payload
  startAttempt := startAttempt

def Call.post (env : Env D) (c : Call D) : Post where
  url := c.url
  signature := env.hmac c.secret (env.stringify c.payload)
  event := c.payload.event
  body := env.stringify c.payload

def next (env : Env D) (s : State D) : Action D → Option (State D)
  | .createWebhook body id createdAt updatedAt => s.createWebhook env body id createdAt updatedAt
  | .listWebhooks => some (s.respond (.webhooks (s.webhooks.map toWebhookView)))
  | .updateWebhook id body now => some (s.updateWebhook env id body now)
  | .deleteWebhook id => some (s.deleteWebhook env id)
  | .findById i =>
    s.readingBack[i]?.map fun id =>
      { s with readingBack := s.readingBack.eraseIdx i }.respond (.webhook ((s.find id).map toWebhookView))
  | .listActive payload =>
    some { s with
      firing := s.firing ++ [(payload, (s.webhooks.filter (·.active)).filter (·.subscribes payload.event))] }
  | .createDelivery i id now =>
    match s.firing[i]? with
    | some (payload, webhook :: rest) =>
      -- The key of the delivery is new, and the one of its webhook must still be there.
      if (s.find webhook.id).isSome && s.deliveries.all (·.id ≠ id) then
        some { s with
          deliveries := s.deliveries ++
            [{ id, webhookId := webhook.id, event := payload.event, runId := payload.runId, payload, createdAt := now }]
          firing := s.firing.set i (payload, rest)
          calls := s.calls ++ [webhook.call id payload 0] }
      else none
    | _ => none
  | .abandon i =>
    s.firing[i]?.map fun (payload, _) => { s with firing := s.firing.set i (payload, []) }
  | .listPending =>
    some { s with retrying := s.retrying ++ [s.deliveries.filter fun row => row.outcome.status = .pending] }
  | .retry i =>
    match s.retrying[i]? with
    | some (row :: rest) =>
      some { s with
        retrying := s.retrying.set i rest
        calls := s.calls ++
          ((s.find row.webhookId).map (·.call row.id (env.jsonb row.payload) row.outcome.attempts)).toList }
    | _ => none
  | .post i =>
    match s.calls[i]? with
    | some c => if hasUsableSecret c.secret then some { s with posts := s.posts ++ [c.post env] } else none
    | none => none
  | .markDelivered i responseStatus now =>
    match s.calls[i]? with
    | some c =>
      if hasUsableSecret c.secret then some (s.record c.deliveryId (·.markDelivered responseStatus now)) else none
    | none => none
  | .markFailed i attempt message now =>
    match s.calls[i]? with
    | some c =>
      if hasUsableSecret c.secret then
        if c.startAttempt < attempt && attempt ≤ maxAttempts then
          some (s.record c.deliveryId (·.markFailed attempt message now))
        else none
      else some (s.record c.deliveryId (·.markFailed maxAttempts skippedNoSecretMessage now))
    | none => none

def machine (env : Env D) : Machine (State D) (Action D) where
  start s := ∃ rows : List Webhook, (rows.map Webhook.id).Nodup ∧ s = { webhooks := rows }
  next := next env

/-! ### Secrets do not show -/

/-- A secret that the checks, the column and the view take for the given one. -/
def maskSecret (secret : String) : String :=
  if hasUsableSecret secret then if (varchar255 secret).isSome then "x" else String.ofList (List.replicate 256 'x')
  else if secret = "" then "" else " "

def Webhook.mask (row : Webhook) : Webhook := { row with secret := maskSecret row.secret }

def Call.mask (c : Call D) : Call D := { c with secret := maskSecret c.secret }

def Post.unsigned (p : Post) : Post := { p with signature := "" }

def State.mask (s : State D) : State D :=
  { s with
    webhooks := s.webhooks.map Webhook.mask
    firing := s.firing.map fun (payload, rows) => (payload, rows.map Webhook.mask)
    calls := s.calls.map Call.mask
    posts := s.posts.map Post.unsigned }

def Action.mask : Action D → Action D
  | .createWebhook body id createdAt updatedAt =>
    .createWebhook { body with secret := maskSecret body.secret } id createdAt updatedAt
  | .updateWebhook id body now => .updateWebhook id { body with secret := body.secret.map maskSecret } now
  | a => a

def Env.unsigned (env : Env D) : Env D := { env with hmac := fun _ _ => "" }

variable {env : Env D} {s t : State D} {a : Action D} {as : List (Action D)}

private theorem hasUsableSecret_iff {secret : String} :
    hasUsableSecret secret = true ↔ ∃ c ∈ secret.toList, isSpace c = false := by
  simp [hasUsableSecret, trim_eq_empty]

/-- The two bodies check for what the deliveries need. -/
theorem validSecret_eq (secret : String) : validSecret secret = hasUsableSecret secret := by
  rw [Bool.eq_iff_iff, hasUsableSecret_iff]
  simp only [validSecret, Bool.and_eq_true, List.any_eq_true, Bool.not_eq_true', decide_eq_true_eq]
  refine ⟨fun h => h.2, fun h => ⟨?_, h⟩⟩
  rintro rfl
  obtain ⟨c, hc, -⟩ := h
  exact absurd hc (List.not_mem_nil (a := c))

/-- A column that cuts a secret off leaves it usable. -/
theorem hasUsableSecret_varchar255 {secret stored : String} (h : varchar255 secret = some stored)
    (husable : hasUsableSecret secret = true) : hasUsableSecret stored = true := by
  obtain ⟨-, -, spaces, hspaces, hsecret⟩ := Columns.stored_eq_some h
  obtain ⟨c, hc, hspace⟩ := hasUsableSecret_iff.1 husable
  rw [hsecret, List.mem_append] at hc
  refine hasUsableSecret_iff.2 ⟨c, hc.resolve_right fun hrest => ?_, hspace⟩
  rw [hspaces c hrest] at hspace
  exact absurd hspace (by decide)

private theorem hasUsableSecret_replicate {n : ℕ} (hn : 0 < n) :
    hasUsableSecret (String.ofList (List.replicate n 'x')) = true := by
  rw [hasUsableSecret_iff, String.toList_ofList]
  exact ⟨'x', List.mem_replicate.2 ⟨hn.ne', rfl⟩, by decide⟩

private theorem varchar255_replicate {n : ℕ} (hn : 255 < n) :
    varchar255 (String.ofList (List.replicate n 'x')) = none := by
  have hrefused : Columns.varchar 255 (String.ofList (List.replicate n 'x')) = false := by
    rw [Columns.varchar, String.toList_ofList, List.drop_replicate, Bool.and_eq_false_iff]
    refine Or.inr (List.all_eq_false.2 ⟨'x', ?_, by decide⟩)
    exact List.mem_replicate.2 ⟨Nat.sub_ne_zero_of_lt hn, rfl⟩
  rw [varchar255, Columns.stored, hrefused]
  rfl

private theorem maskSecret_cases (secret : String) :
    (hasUsableSecret secret = true ∧ (varchar255 secret).isSome = true ∧ maskSecret secret = "x") ∨
    (hasUsableSecret secret = true ∧ varchar255 secret = none ∧
      maskSecret secret = String.ofList (List.replicate 256 'x')) ∨
    (hasUsableSecret secret = false ∧ secret = "" ∧ maskSecret secret = "") ∨
    (hasUsableSecret secret = false ∧ secret ≠ "" ∧ maskSecret secret = " ") := by
  unfold maskSecret
  cases hasUsableSecret secret with
  | true =>
    cases hstored : varchar255 secret with
    | none => exact .inr (.inl ⟨rfl, rfl, rfl⟩)
    | some stored => exact .inl ⟨rfl, rfl, rfl⟩
  | false =>
    by_cases hempty : secret = ""
    · exact .inr (.inr (.inl ⟨rfl, hempty, if_pos hempty⟩))
    · exact .inr (.inr (.inr ⟨rfl, hempty, if_neg hempty⟩))

@[simp] theorem hasUsableSecret_maskSecret (secret : String) :
    hasUsableSecret (maskSecret secret) = hasUsableSecret secret := by
  rcases maskSecret_cases secret with ⟨h, -, hmask⟩ | ⟨h, -, hmask⟩ | ⟨h, -, hmask⟩ | ⟨h, -, hmask⟩ <;> rw [h, hmask]
  · decide
  · exact hasUsableSecret_replicate (by decide)
  · decide
  · decide

@[simp] theorem validSecret_maskSecret (secret : String) : validSecret (maskSecret secret) = validSecret secret := by
  rw [validSecret_eq, validSecret_eq, hasUsableSecret_maskSecret]

private theorem length_maskSecret (secret : String) : 0 < (maskSecret secret).length ↔ 0 < secret.length := by
  have hempty : hasUsableSecret "" = false := by decide
  have hpos : 0 < secret.length ↔ secret ≠ "" := by
    rw [Nat.pos_iff_ne_zero, Ne, String.length_eq_zero_iff]
  rw [hpos]
  rcases maskSecret_cases secret with ⟨h, -, hmask⟩ | ⟨h, -, hmask⟩ | ⟨-, h, hmask⟩ | ⟨-, h, hmask⟩ <;> rw [hmask]
  · refine iff_of_true (by decide) ?_
    rintro rfl
    exact absurd h (by rw [hempty]; decide)
  · refine iff_of_true (by rw [String.length_ofList, List.length_replicate]; decide) ?_
    rintro rfl
    exact absurd h (by rw [hempty]; decide)
  · exact iff_of_false (by decide) (fun hne => hne h)
  · exact iff_of_true (by decide) h

private theorem varchar255_maskSecret {secret : String} (husable : hasUsableSecret secret = true) :
    varchar255 (maskSecret secret) = (varchar255 secret).map maskSecret := by
  rcases maskSecret_cases secret with ⟨-, hsome, hmask⟩ | ⟨-, hnone, hmask⟩ | ⟨h, -⟩ | ⟨h, -⟩
  · obtain ⟨stored, hstored⟩ := Option.isSome_iff_exists.1 hsome
    have hstill : varchar255 stored = some stored := Columns.stored_stored hstored
    rw [hmask, hstored, Option.map_some, maskSecret, hasUsableSecret_varchar255 hstored husable, hstill]
    exact Columns.stored_of_length_le (by decide) (by decide)
  · rw [hmask, hnone, varchar255_replicate (by decide)]
    rfl
  · rw [h] at husable
    cases husable
  · rw [h] at husable
    cases husable

-- The 256 characters must not unfold where two masked states are compared.
attribute [irreducible] maskSecret

private theorem toWebhookView_mask (row : Webhook) : toWebhookView row.mask = toWebhookView row := by
  simp only [toWebhookView, Webhook.mask, WebhookView.mk.injEq, true_and]
  exact decide_eq_decide.2 (length_maskSecret row.secret)

private theorem find_mask (s : State D) (id : String) : s.mask.find id = (s.find id).map Webhook.mask := by
  simp only [State.find, Table.get, State.mask, List.find?_map]
  rfl

theorem respond_mask (s : State D) (response : Response) : (s.respond response).mask = s.mask.respond response := rfl

private theorem update_mask (row : Webhook) (fields : UpdateWebhookDto) (now : String) :
    (row.update fields now).mask = row.mask.update { fields with secret := fields.secret.map maskSecret } now := by
  cases hsecret : fields.secret <;> simp [Webhook.update, Webhook.mask, hsecret]

private theorem createColumns_mask {body : CreateWebhookDto} (h : validSecret body.secret = true) :
    CreateWebhookDto.columns { body with secret := maskSecret body.secret } =
      body.columns.map fun fields => { fields with secret := maskSecret fields.secret } := by
  rw [validSecret_eq] at h
  unfold CreateWebhookDto.columns
  dsimp only
  split
  · rw [varchar255_maskSecret h]
    cases varchar255 body.secret <;> rfl
  · rfl

private theorem createWebhook_mask (s : State D) (body : CreateWebhookDto) (id createdAt updatedAt : String) :
    (s.createWebhook env body id createdAt updatedAt).map State.mask =
      s.mask.createWebhook env.unsigned { body with secret := maskSecret body.secret } id createdAt updatedAt := by
  have hvalid :
      CreateWebhookDto.valid env.unsigned { body with secret := maskSecret body.secret } = body.valid env := by
    simp [CreateWebhookDto.valid, Env.unsigned]
  unfold State.createWebhook
  rw [hvalid]
  split
  next hbody =>
    rw [createColumns_mask (Bool.and_eq_true _ _ ▸ hbody).2]
    cases body.columns with
    | none => rfl
    | some fields =>
      simp only [Option.map_some, find_mask, Option.isSome_map]
      split
      · rfl
      · simp [State.mask, Webhook.mask]
  · rfl

private theorem columns_mask {body : UpdateWebhookDto} (h : body.secret.all validSecret = true) :
    UpdateWebhookDto.columns { body with secret := body.secret.map maskSecret } =
      body.columns.map fun fields => { fields with secret := fields.secret.map maskSecret } := by
  unfold UpdateWebhookDto.columns
  dsimp only
  split
  · cases hsecret : body.secret with
    | none => simp [hsecret]
    | some secret =>
      have husable : hasUsableSecret secret = true := by simpa [hsecret, validSecret_eq] using h
      simp only [Option.map_some, varchar255_maskSecret husable]
      cases varchar255 secret <;> rfl
  · rfl

private theorem updateWebhook_mask (s : State D) (id : String) (body : UpdateWebhookDto) (now : String) :
    (s.updateWebhook env id body now).mask =
      s.mask.updateWebhook env.unsigned id { body with secret := body.secret.map maskSecret } now := by
  have hvalid : UpdateWebhookDto.valid env.unsigned { body with secret := body.secret.map maskSecret } =
      body.valid env := by
    simp only [UpdateWebhookDto.valid, Env.unsigned]
    cases body.secret <;> simp
  have huuid : env.unsigned.isUuid id = env.isUuid id := rfl
  unfold State.updateWebhook
  rw [hvalid, huuid]
  by_cases hbody : (env.isUuid id && body.valid env) = true
  · have hsecret : body.secret.all validSecret = true := by
      simp only [UpdateWebhookDto.valid, Bool.and_eq_true] at hbody
      exact hbody.2.2
    rw [if_pos hbody, if_pos hbody, columns_mask hsecret]
    cases body.columns with
    | none => rfl
    | some fields =>
      simp only [Option.map_some, State.mask, List.map_map]
      congr 1
      refine List.map_congr_left fun row _ => ?_
      by_cases hid : row.id = id
      · simp only [Function.comp_apply, hid, if_true, update_mask]
        exact (if_pos hid).symm
      · simp only [Function.comp_apply, hid, if_false]
        exact (if_neg hid).symm
  · rw [if_neg hbody, if_neg hbody]
    rfl

private theorem deleteWebhook_mask (s : State D) (id : String) :
    (s.deleteWebhook env id).mask = s.mask.deleteWebhook env.unsigned id := by
  unfold State.deleteWebhook
  have hremove : (Table.remove Webhook.id s.webhooks id).map Webhook.mask =
      Table.remove Webhook.id (s.webhooks.map Webhook.mask) id := by
    rw [Table.remove, Table.remove, List.filter_map]
    rfl
  by_cases hid : env.isUuid id = true
  · rw [if_pos hid, if_pos (show env.unsigned.isUuid id = true from hid)]
    simp only [State.mask, State.respond, hremove]
  · rw [if_neg hid, if_neg (show ¬ env.unsigned.isUuid id = true from hid)]
    rfl

private theorem call_mask (s : State D) (i : Nat) : s.mask.calls[i]? = s.calls[i]?.map Call.mask := List.getElem?_map

private theorem firing_mask (s : State D) (i : Nat) :
    s.mask.firing[i]? = s.firing[i]?.map fun (payload, rows) => (payload, rows.map Webhook.mask) := List.getElem?_map

private theorem usable_mask (c : Call D) : hasUsableSecret c.mask.secret = hasUsableSecret c.secret := by
  simp only [Call.mask, hasUsableSecret_maskSecret]

theorem post_mask (c : Call D) : c.mask.post env.unsigned = (c.post env).unsigned := rfl

/-- Masking goes along with every step, apart from the signatures. -/
theorem next_mask (s : State D) (a : Action D) : (next env s a).map State.mask = next env.unsigned s.mask a.mask := by
  cases a with
  | createWebhook body id createdAt updatedAt => exact createWebhook_mask s body id createdAt updatedAt
  | listWebhooks =>
    simp only [next, Action.mask, Option.map_some, respond_mask]
    simp only [State.mask, List.map_map, Function.comp_def, toWebhookView_mask]
  | updateWebhook id body now => exact congrArg some (updateWebhook_mask s id body now)
  | deleteWebhook id => exact congrArg some (deleteWebhook_mask s id)
  | findById i =>
    simp only [next, Action.mask, find_mask, Option.map_map]
    refine congrArg (Option.map · s.readingBack[i]?) (funext fun id => ?_)
    simp only [Function.comp_def, respond_mask, toWebhookView_mask]
    rfl
  | listActive payload =>
    simp only [next, Action.mask, Option.map_some, State.mask, List.map_append, List.filter_map]
    rfl
  | createDelivery i id now =>
    simp only [next, Action.mask, firing_mask]
    rcases s.firing[i]? with _ | ⟨payload, _ | ⟨webhook, rest⟩⟩
    · rfl
    · rfl
    · simp only [Option.map_some, List.map_cons]
      have hid : webhook.mask.id = webhook.id := rfl
      rw [hid, find_mask, Option.isSome_map]
      have hdeliveries : s.mask.deliveries = s.deliveries := rfl
      rw [hdeliveries]
      split
      · simp [State.mask, List.map_set, Call.mask, Webhook.call, Webhook.mask]
      · rfl
  | abandon i =>
    simp only [next, Action.mask, firing_mask]
    rcases s.firing[i]? with _ | ⟨payload, rows⟩
    · rfl
    · simp [State.mask, List.map_set]
  | listPending => rfl
  | retry i =>
    simp only [next, Action.mask]
    have hretrying : s.mask.retrying = s.retrying := rfl
    rw [hretrying]
    rcases s.retrying[i]? with _ | _ | ⟨row, rest⟩
    · rfl
    · rfl
    · simp only [Option.map_some, find_mask]
      cases s.find row.webhookId with
      | none => simp [State.mask]
      | some webhook => simp [State.mask, Webhook.call, Call.mask, Webhook.mask, Env.unsigned]
  | post i =>
    simp only [next, Action.mask, call_mask]
    cases s.calls[i]? with
    | none => rfl
    | some c =>
      simp only [Option.map_some, usable_mask]
      split
      · simp [State.mask, post_mask]
      · rfl
  | markDelivered i responseStatus now =>
    simp only [next, Action.mask, call_mask]
    cases s.calls[i]? with
    | none => rfl
    | some c =>
      simp only [Option.map_some, usable_mask]
      cases hasUsableSecret c.secret <;> rfl
  | markFailed i attempt message now =>
    simp only [next, Action.mask, call_mask]
    cases s.calls[i]? with
    | none => rfl
    | some c =>
      have hstart : c.mask.startAttempt = c.startAttempt := rfl
      simp only [Option.map_some, usable_mask, hstart]
      cases hasUsableSecret c.secret with
      | false => rfl
      | true => cases decide (c.startAttempt < attempt) && decide (attempt ≤ maxAttempts) <;> rfl

/-- Two runs that differ in secrets of one kind and in what signs: they answer and record the same, and their POSTs
differ in the signatures. -/
theorem secrets_only_sign (hmac' : String → String → String) {s' : State D} {as' : List (Action D)}
    (hs : s.mask = s'.mask) (has : as.map Action.mask = as'.map Action.mask) (h : (machine env).exec s as = some t) :
    ∃ t', (machine { env with hmac := hmac' }).exec s' as' = some t' ∧ t'.responses = t.responses ∧
      t'.deliveries = t.deliveries ∧ t'.posts.map Post.unsigned = t.posts.map Post.unsigned := by
  have hfirst : ((machine env).exec s as).map State.mask = (machine env.unsigned).exec s.mask (as.map Action.mask) :=
    Machine.exec_map next_mask s as
  have hsecond : ((machine { env with hmac := hmac' }).exec s' as').map State.mask =
      (machine env.unsigned).exec s'.mask (as'.map Action.mask) :=
    Machine.exec_map (fun s a => next_mask s a) s' as'
  rw [h, Option.map_some, hs, has, ← hsecond] at hfirst
  obtain ⟨t', ht', hmask⟩ := Option.map_eq_some_iff.1 hfirst.symm
  have hposts : t'.mask.posts = t.mask.posts := congrArg State.posts hmask
  have hresponses : t'.mask.responses = t.mask.responses := congrArg State.responses hmask
  have hdeliveries : t'.mask.deliveries = t.mask.deliveries := congrArg State.deliveries hmask
  exact ⟨t', ht', hresponses, hdeliveries, hposts⟩

/-! ### A run -/

def completed : WebhookPayload Unit where
  event := "run.completed"
  runId := "run-1"
  status := "completed"
  timestamp := "2026-11-01T12:00:00.000Z"

def completedBody : String :=
  "\x7b\"event\":\"run.completed\",\"runId\":\"run-1\",\"status\":\"completed\"," ++
    "\"timestamp\":\"2026-11-01T12:00:00.000Z\"\x7d"

/-- The signatures are those of `completedBody`. -/
def exampleEnv : Env Unit where
  isUrl url := startsWith url "https://"
  isUuid id := id.length == 36
  hmac secret _ :=
    if secret = "s3cret" then "0decf8952565049f81db334d1d20c5a223436ed3390a01954acec251429ea078"
    else "dd5b3662799c971007487e9da28ec88174bca75d80d0a6e2d661bfb92dff2689"
  stringify _ := completedBody
  jsonb payload := payload

def webhookId : String := "b3f1c1de-0000-4000-8000-000000000001"

/-- A webhook is registered, a run completes, and the delivery is posted twice, the second time after a restart. -/
def registerAndFire (secret : String) : List (Action Unit) :=
  [.createWebhook { url := "https://example.com/hook", events := some ["run.completed"], secret } webhookId "t0" "t0",
    .findById 0, .listActive completed, .createDelivery 0 "delivery-1" "t1", .post 0,
    .markFailed 0 1 "webhook returned 500" "t2", .listPending, .retry 0, .post 1, .markDelivered 1 200 "t3",
    .listWebhooks]

def fired (secret : String) : State Unit := ((machine exampleEnv).exec {} (registerAndFire secret)).getD {}

private theorem exec_fired : (machine exampleEnv).exec {} (registerAndFire "s3cret") = some (fired "s3cret") := by
  decide +kernel

/-- Another secret: the same answers, and the same POSTs with other signatures. -/
theorem secrets_only_sign_rotated : ∃ t', (machine exampleEnv).exec {} (registerAndFire "rotated") = some t' ∧
    t'.responses = (fired "s3cret").responses ∧ t'.deliveries = (fired "s3cret").deliveries ∧
    t'.posts.map Post.unsigned = (fired "s3cret").posts.map Post.unsigned := by
  have hmask : (registerAndFire "s3cret").map Action.mask = (registerAndFire "rotated").map Action.mask := by
    have hsecrets : maskSecret "s3cret" = maskSecret "rotated" := by decide +kernel
    simp only [registerAndFire, List.map_cons, Action.mask, hsecrets]
  exact (secrets_only_sign exampleEnv.hmac rfl hmask exec_fired :)

/-! ### What a step does -/

inductive NextSpec (env : Env D) (s : State D) : Action D → State D → Prop
  | created {body id createdAt updatedAt fields} (hvalid : body.valid env = true) (hfields : body.columns = some fields)
    (hnew : s.find id = none) :
    NextSpec env s (.createWebhook body id createdAt updatedAt) { s with
      webhooks := s.webhooks ++
        [{ id, url := fields.url, events := fields.events.getD [], secret := fields.secret, active := true, createdAt,
           updatedAt }]
      readingBack := s.readingBack ++ [id] }
  | updated {id body now fields} (hvalid : body.valid env = true) (hfields : body.columns = some fields) :
    NextSpec env s (.updateWebhook id body now) { s with
      webhooks := s.webhooks.map fun row => if row.id = id then row.update fields now else row
      readingBack := s.readingBack ++ [id] }
  | refused {a response} (hresponse : response = .badRequest ∨ response = .internalError) :
    NextSpec env s a (s.respond response)
  | listed : NextSpec env s .listWebhooks (s.respond (.webhooks (s.webhooks.map toWebhookView)))
  | deleted {id} : NextSpec env s (.deleteWebhook id)
      ({ s with
        webhooks := Table.remove Webhook.id s.webhooks id
        deliveries := s.deliveries.filter fun row => row.webhookId ≠ id }.respond .noContent)
  | readBack {i id} (hid : s.readingBack[i]? = some id) :
    NextSpec env s (.findById i)
      ({ s with readingBack := s.readingBack.eraseIdx i }.respond (.webhook ((s.find id).map toWebhookView)))
  | fired {payload} : NextSpec env s (.listActive payload) { s with
      firing := s.firing ++ [(payload, (s.webhooks.filter (·.active)).filter (·.subscribes payload.event))] }
  | delivering {i id now payload webhook rest} (hfiring : s.firing[i]? = some (payload, webhook :: rest)) :
    NextSpec env s (.createDelivery i id now) { s with
      deliveries := s.deliveries ++
        [{ id, webhookId := webhook.id, event := payload.event, runId := payload.runId, payload, createdAt := now }]
      firing := s.firing.set i (payload, rest)
      calls := s.calls ++ [webhook.call id payload 0] }
  | abandoned {i payload rows} (hfiring : s.firing[i]? = some (payload, rows)) :
    NextSpec env s (.abandon i) { s with firing := s.firing.set i (payload, []) }
  | pending : NextSpec env s .listPending { s with
      retrying := s.retrying ++ [s.deliveries.filter fun row => row.outcome.status = .pending] }
  | retried {i row rest} (hretrying : s.retrying[i]? = some (row :: rest)) :
    NextSpec env s (.retry i) { s with
      retrying := s.retrying.set i rest
      calls := s.calls ++
        ((s.find row.webhookId).map (·.call row.id (env.jsonb row.payload) row.outcome.attempts)).toList }
  | posted {i c} (hc : s.calls[i]? = some c) (husable : hasUsableSecret c.secret = true) :
    NextSpec env s (.post i) { s with posts := s.posts ++ [c.post env] }
  | recorded {a id f} : NextSpec env s a (s.record id f)

private theorem next_spec (h : next env s a = some t) : NextSpec env s a t := by
  cases a with
  | createWebhook body id createdAt updatedAt =>
    simp only [next, State.createWebhook] at h
    split at h
    next hvalid =>
      cases hfields : body.columns with
      | none =>
        simp only [hfields] at h
        exact Option.some.inj h ▸ .refused (.inr rfl)
      | some fields =>
        simp only [hfields] at h
        split at h
        · cases h
        next hnew => exact Option.some.inj h ▸ .created hvalid hfields (by simpa using hnew)
    · exact Option.some.inj h ▸ .refused (.inl rfl)
  | listWebhooks => exact Option.some.inj h ▸ .listed
  | updateWebhook id body now =>
    simp only [next, State.updateWebhook] at h
    split at h
    next hvalid =>
      cases hfields : body.columns with
      | none =>
        simp only [hfields] at h
        exact Option.some.inj h ▸ .refused (.inr rfl)
      | some fields =>
        simp only [hfields] at h
        exact Option.some.inj h ▸ .updated (Bool.and_eq_true _ _ ▸ hvalid).2 hfields
    · exact Option.some.inj h ▸ .refused (.inl rfl)
  | deleteWebhook id =>
    simp only [next, State.deleteWebhook] at h
    split at h
    · exact Option.some.inj h ▸ .deleted
    · exact Option.some.inj h ▸ .refused (.inl rfl)
  | findById i =>
    obtain ⟨id, hid, rfl⟩ := Option.map_eq_some_iff.1 h
    exact .readBack hid
  | listActive payload => exact Option.some.inj h ▸ .fired
  | createDelivery i id now =>
    simp only [next] at h
    split at h
    next payload webhook rest hfiring =>
      split at h
      · exact Option.some.inj h ▸ .delivering hfiring
      · cases h
    · cases h
  | abandon i =>
    obtain ⟨⟨payload, rows⟩, hfiring, rfl⟩ := Option.map_eq_some_iff.1 h
    exact .abandoned hfiring
  | listPending => exact Option.some.inj h ▸ .pending
  | retry i =>
    simp only [next] at h
    split at h
    next row rest hretrying => exact Option.some.inj h ▸ .retried hretrying
    · cases h
  | post i =>
    simp only [next] at h
    split at h
    next c hc =>
      split at h
      next husable => exact Option.some.inj h ▸ .posted hc husable
      · cases h
    · cases h
  | markDelivered i responseStatus now =>
    simp only [next] at h
    split at h
    · split at h
      · exact Option.some.inj h ▸ .recorded
      · cases h
    · cases h
  | markFailed i attempt message now =>
    simp only [next] at h
    split at h
    · split at h
      · split at h
        · exact Option.some.inj h ▸ .recorded
        · cases h
      · exact Option.some.inj h ▸ .recorded
    · cases h

/-! ### Who gets a POST -/

/-- Of the rows in `P`, one is active and has subscribed to the event. -/
def Subscribed (P : Webhook → Prop) (webhookId event : String) : Prop :=
  ∃ row, P row ∧ row.id = webhookId ∧ row.active = true ∧ row.subscribes event = true

/-- The POST is for a row in `P` and signed with its secret, which is usable. -/
def Signed (env : Env D) (P : Webhook → Prop) (post : Post) : Prop :=
  ∃ row payload, P row ∧ hasUsableSecret row.secret = true ∧
    post = ⟨row.url, env.hmac row.secret (env.stringify payload), payload.event, env.stringify payload⟩ ∧
    Subscribed P row.id payload.event

/-- What `fireEvent`, `retryPending` and the calls have read comes from rows in `P`, and their events are in `Q`. -/
structure Inv (env : Env D) (P : Webhook → Prop) (Q : String → String → Prop) (s : State D) : Prop where
  firing : ∀ f ∈ s.firing, ∀ row ∈ f.2, P row ∧ Q row.id f.1.event
  deliveries : ∀ row ∈ s.deliveries, Q row.webhookId row.payload.event
  retrying : ∀ rows ∈ s.retrying, ∀ row ∈ rows, Q row.webhookId row.payload.event
  calls : ∀ c ∈ s.calls, (∃ row, P row ∧ row.id = c.webhookId ∧ row.url = c.url ∧ row.secret = c.secret) ∧
    Q c.webhookId c.payload.event
  posts : ∀ post ∈ s.posts, ∃ row payload, P row ∧ hasUsableSecret row.secret = true ∧
    post = ⟨row.url, env.hmac row.secret (env.stringify payload), payload.event, env.stringify payload⟩ ∧
    Q row.id payload.event

section Inv

variable {P : Webhook → Prop} {Q : String → String → Prop}

private theorem Inv.step
    (hfired : ∀ row event, P row → row.active = true → row.subscribes event = true → Q row.id event)
    (hretried : ∀ id payload, Q id payload.event → Q id (env.jsonb payload).event) (hs : Inv env P Q s)
    (hrows : ∀ row ∈ s.webhooks, P row) (h : NextSpec env s a t) : Inv env P Q t := by
  cases h with
  | created | updated | refused | listed | readBack => exact ⟨hs.firing, hs.deliveries, hs.retrying, hs.calls, hs.posts⟩
  | deleted =>
    exact ⟨hs.firing, fun row hrow => hs.deliveries row (List.mem_of_mem_filter hrow), hs.retrying, hs.calls, hs.posts⟩
  | fired =>
    refine ⟨fun f hf row hrow => ?_, hs.deliveries, hs.retrying, hs.calls, hs.posts⟩
    rcases List.mem_append.1 hf with hf | hf
    · exact hs.firing f hf row hrow
    · obtain rfl := List.mem_singleton.1 hf
      obtain ⟨hrow, hevent⟩ := List.mem_filter.1 hrow
      obtain ⟨hrow, hactive⟩ := List.mem_filter.1 hrow
      exact ⟨hrows row hrow, hfired row _ (hrows row hrow) hactive hevent⟩
  | @delivering i id now payload webhook rest hfiring =>
    have hqueue := hs.firing _ (List.mem_of_getElem? hfiring)
    obtain ⟨hP, hQ⟩ := hqueue webhook List.mem_cons_self
    refine ⟨fun f hf row hrow => ?_, fun row hrow => ?_, hs.retrying, fun c hc => ?_, hs.posts⟩
    · rcases List.mem_or_eq_of_mem_set hf with hf | rfl
      · exact hs.firing f hf row hrow
      · exact hqueue row (List.mem_cons_of_mem _ hrow)
    · rcases List.mem_append.1 hrow with hrow | hrow
      · exact hs.deliveries row hrow
      · obtain rfl := List.mem_singleton.1 hrow
        exact hQ
    · rcases List.mem_append.1 hc with hc | hc
      · exact hs.calls c hc
      · obtain rfl := List.mem_singleton.1 hc
        exact ⟨⟨webhook, hP, rfl, rfl, rfl⟩, hQ⟩
  | abandoned hfiring =>
    refine ⟨fun f hf row hrow => ?_, hs.deliveries, hs.retrying, hs.calls, hs.posts⟩
    rcases List.mem_or_eq_of_mem_set hf with hf | rfl
    · exact hs.firing f hf row hrow
    · exact absurd hrow (List.not_mem_nil)
  | pending =>
    refine ⟨hs.firing, hs.deliveries, fun rows hmem row hrow => ?_, hs.calls, hs.posts⟩
    rcases List.mem_append.1 hmem with hmem | hmem
    · exact hs.retrying rows hmem row hrow
    · obtain rfl := List.mem_singleton.1 hmem
      exact hs.deliveries row (List.mem_of_mem_filter hrow)
  | @retried i row rest hretrying =>
    have hqueue := hs.retrying _ (List.mem_of_getElem? hretrying)
    refine ⟨hs.firing, hs.deliveries, fun rows hmem other hother => ?_, fun c hc => ?_, hs.posts⟩
    · rcases List.mem_or_eq_of_mem_set hmem with hmem | rfl
      · exact hs.retrying rows hmem other hother
      · exact hqueue other (List.mem_cons_of_mem _ hother)
    · rcases List.mem_append.1 hc with hc | hc
      · exact hs.calls c hc
      · obtain ⟨webhook, hfind, rfl⟩ := Option.map_eq_some_iff.1 (Option.mem_toList.1 hc)
        have hid : webhook.id = row.webhookId := Table.key_of_get hfind
        refine ⟨⟨webhook, hrows webhook (Table.mem_of_get hfind), rfl, rfl, rfl⟩, ?_⟩
        have hQ := hqueue row List.mem_cons_self
        rw [← hid] at hQ
        exact hretried webhook.id row.payload hQ
  | @posted i c hc husable =>
    refine ⟨hs.firing, hs.deliveries, hs.retrying, hs.calls, fun post hpost => ?_⟩
    rcases List.mem_append.1 hpost with hpost | hpost
    · exact hs.posts post hpost
    · obtain rfl := List.mem_singleton.1 hpost
      obtain ⟨⟨row, hP, hid, hurl, hsecret⟩, hQ⟩ := hs.calls c (List.mem_of_getElem? hc)
      refine ⟨row, c.payload, hP, hsecret ▸ husable, ?_, hid ▸ hQ⟩
      rw [hurl, hsecret]
      rfl
  | recorded =>
    refine ⟨hs.firing, fun row hrow => ?_, hs.retrying, hs.calls, hs.posts⟩
    obtain ⟨old, hold, rfl⟩ := List.mem_map.1 hrow
    have hQ := hs.deliveries old hold
    split <;> exact hQ

private theorem inv_start (rows : List Webhook) : Inv env P Q { webhooks := rows } := by
  refine ⟨?_, ?_, ?_, ?_, ?_⟩ <;> exact fun _ h => absurd h List.not_mem_nil

/-- `P` holds of the rows in every state of the run. -/
theorem Inv.exec (hfired : ∀ row event, P row → row.active = true → row.subscribes event = true → Q row.id event)
    (hretried : ∀ id payload, Q id payload.event → Q id (env.jsonb payload).event) (hs : Inv env P Q s)
    (hrows : ∀ bs u, bs <+: as → (machine env).exec s bs = some u → ∀ row ∈ u.webhooks, P row)
    (h : (machine env).exec s as = some t) : Inv env P Q t := by
  induction as generalizing s with
  | nil => exact Option.some.inj h ▸ hs
  | cons a as ih =>
    obtain ⟨u, hu, h⟩ := Machine.exec_cons_eq_some.1 h
    have hnext := hs.step hfired hretried (hrows [] s List.nil_prefix rfl) (next_spec hu)
    refine ih hnext (fun bs v hbs hv => ?_) h
    exact hrows (a :: bs) v (List.cons_prefix_cons.2 ⟨rfl, hbs⟩) (Machine.exec_cons_eq_some.2 ⟨u, hu, hv⟩)

end Inv

/-- The row is stored at some time of the run. -/
def StoredIn (env : Env D) (s : State D) (as : List (Action D)) (row : Webhook) : Prop :=
  ∃ bs u, bs <+: as ∧ (machine env).exec s bs = some u ∧ row ∈ u.webhooks

/-- Every POST goes to the address of a stored webhook and is signed with the usable secret beside this address, and its
event is one that the webhook has been active for. -/
theorem post_signed (hjsonb : ∀ payload, (env.jsonb payload).event = payload.event) (hs : (machine env).start s)
    (h : (machine env).exec s as = some t) : ∀ post ∈ t.posts, Signed env (StoredIn env s as) post := by
  obtain ⟨rows, -, rfl⟩ := hs
  let P := StoredIn env { webhooks := rows } as
  have hinv : Inv env P (Subscribed P) t := by
    refine (inv_start rows).exec (fun row event hP hactive hevent => ⟨row, hP, rfl, hactive, hevent⟩)
      (fun id payload hsub => ?_) (fun bs u hbs hu row hrow => ⟨bs, u, hbs, hu, hrow⟩) h
    rw [hjsonb]
    exact hsub
  exact hinv.posts

private theorem start_empty : (machine exampleEnv).start {} := ⟨[], List.nodup_nil, rfl⟩

theorem post_signed_twice : (fired "s3cret").posts.length = 2 ∧
    ∀ post ∈ (fired "s3cret").posts, Signed exampleEnv (StoredIn exampleEnv {} (registerAndFire "s3cret")) post :=
  ⟨by decide +kernel, post_signed (fun _ => rfl) start_empty exec_fired⟩

/-! ### Usable secrets -/

def Usable (row : Webhook) : Prop := hasUsableSecret row.secret = true

/-- The views of a response, of which all have a secret. -/
def Response.HaveSecret : Response → Prop
  | .webhook view => ∀ v ∈ view, v.hasSecret = true
  | .webhooks views => ∀ v ∈ views, v.hasSecret = true
  | _ => True

structure AllUsable (s : State D) : Prop where
  webhooks : ∀ row ∈ s.webhooks, Usable row
  responses : ∀ response ∈ s.responses, response.HaveSecret

private theorem Usable.hasSecret {row : Webhook} (h : Usable row) : (toWebhookView row).hasSecret = true := by
  obtain ⟨c, hc, -⟩ := hasUsableSecret_iff.1 h
  refine decide_eq_true ?_
  rw [← String.length_toList]
  exact List.length_pos_of_mem hc

private theorem AllUsable.respond (h : AllUsable s) {response : Response} (hresponse : response.HaveSecret) :
    AllUsable (s.respond response) := by
  refine ⟨h.webhooks, fun other hother => ?_⟩
  rcases List.mem_append.1 hother with hother | hother
  · exact h.responses other hother
  · exact List.mem_singleton.1 hother ▸ hresponse

private theorem AllUsable.step (hs : AllUsable s) (h : NextSpec env s a t) : AllUsable t := by
  cases h with
  | @created body id createdAt updatedAt fields hvalid hfields =>
    have husable : hasUsableSecret body.secret = true := by
      rw [← validSecret_eq]
      exact (Bool.and_eq_true _ _ ▸ hvalid).2
    refine ⟨fun row hrow => ?_, hs.responses⟩
    rcases List.mem_append.1 hrow with hrow | hrow
    · exact hs.webhooks row hrow
    · obtain rfl := List.mem_singleton.1 hrow
      unfold CreateWebhookDto.columns at hfields
      rw [Option.ite_none_right_eq_some] at hfields
      obtain ⟨secret, hsecret, rfl⟩ := Option.map_eq_some_iff.1 hfields.2
      exact hasUsableSecret_varchar255 hsecret husable
  | @updated id body now fields hvalid hfields =>
    refine ⟨fun row hrow => ?_, hs.responses⟩
    obtain ⟨old, hold, rfl⟩ := List.mem_map.1 hrow
    have hkept := hs.webhooks old hold
    split
    · unfold UpdateWebhookDto.columns at hfields
      rw [Option.ite_none_right_eq_some] at hfields
      obtain ⟨-, hfields⟩ := hfields
      cases hsecret : body.secret with
      | none =>
        simp only [hsecret, Option.some.injEq] at hfields
        simpa [Usable, Webhook.update, ← hfields, hsecret] using hkept
      | some secret =>
        simp only [hsecret] at hfields
        obtain ⟨stored, hstored, rfl⟩ := Option.map_eq_some_iff.1 hfields
        have husable : hasUsableSecret secret = true := by
          simp only [UpdateWebhookDto.valid, hsecret, Bool.and_eq_true, Option.all_some] at hvalid
          rw [← validSecret_eq]
          exact hvalid.2
        exact hasUsableSecret_varchar255 hstored husable
    · exact hkept
  | @refused _ response hresponse =>
    refine hs.respond ?_
    rcases hresponse with rfl | rfl <;> trivial
  | listed =>
    refine hs.respond fun v hv => ?_
    obtain ⟨row, hrow, rfl⟩ := List.mem_map.1 hv
    exact (hs.webhooks row hrow).hasSecret
  | @deleted id =>
    have hrest : AllUsable { s with
        webhooks := Table.remove Webhook.id s.webhooks id
        deliveries := s.deliveries.filter fun row => row.webhookId ≠ id } :=
      ⟨fun row hrow => hs.webhooks row (List.mem_of_mem_filter hrow), hs.responses⟩
    exact hrest.respond trivial
  | @readBack i id hid =>
    have hrest : AllUsable { s with readingBack := s.readingBack.eraseIdx i } := ⟨hs.webhooks, hs.responses⟩
    refine hrest.respond fun v hv => ?_
    obtain ⟨row, hfind, rfl⟩ := Option.map_eq_some_iff.1 hv
    exact (hs.webhooks row (Table.mem_of_get hfind)).hasSecret
  | fired | delivering | abandoned | pending | retried | posted | recorded => exact ⟨hs.webhooks, hs.responses⟩

/-- Where the secrets in the table are usable, they stay so: no call is ever skipped, and every view that is returned
says that there is one. -/
theorem never_skipped (hs : (machine env).start s) (husable : ∀ row ∈ s.webhooks, hasUsableSecret row.secret = true)
    (h : (machine env).exec s as = some t) :
    (∀ row ∈ t.webhooks, hasUsableSecret row.secret = true) ∧ (∀ c ∈ t.calls, hasUsableSecret c.secret = true) ∧
      ∀ response ∈ t.responses, response.HaveSecret := by
  obtain ⟨rows, -, rfl⟩ := hs
  have hstart : AllUsable ({ webhooks := rows } : State D) := ⟨husable, fun _ h => absurd h List.not_mem_nil⟩
  have hall : ∀ bs u, (machine env).exec { webhooks := rows } bs = some u → AllUsable u := fun bs u hu =>
    Machine.exec_invariant (fun _ _ _ hs hnext => hs.step (next_spec hnext)) hstart hu
  have hinv : Inv env Usable (fun _ _ => True) t :=
    (inv_start rows).exec (fun _ _ _ _ _ => trivial) (fun _ _ _ => trivial)
      (fun bs u _ hu => (hall bs u hu).webhooks) h
  refine ⟨(hall as t h).webhooks, fun c hc => ?_, (hall as t h).responses⟩
  obtain ⟨⟨row, hrow, -, -, hsecret⟩, -⟩ := hinv.calls c hc
  exact hsecret ▸ hrow

theorem never_skipped_fired : (fired "s3cret").responses.length = 2 ∧
    (∀ row ∈ (fired "s3cret").webhooks, hasUsableSecret row.secret = true) ∧
    (∀ c ∈ (fired "s3cret").calls, hasUsableSecret c.secret = true) ∧
    ∀ response ∈ (fired "s3cret").responses, response.HaveSecret :=
  ⟨by decide +kernel, never_skipped start_empty (fun _ h => absurd h List.not_mem_nil) exec_fired⟩

end MacpControlPlane.WebhookSubscriptions
