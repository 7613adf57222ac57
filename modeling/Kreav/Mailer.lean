import Kreav.CompletedEvents
import Kreav.DeliveryEmail
import Kreav.PaymentGate
import Kreav.WalletHistory

/-!
# The delivery of a product

`backend/src/notifications/product-delivery.listener.ts` and `mailer.service.ts`. The listener of
`settlement.completed` reads the order, sends the buyer an e-mail with the link and stores the
attempt. Without an API key nothing is sent, and that counts as `simulated`. No error leaves the
listener.

`postOffice` is the machine of the listeners. The whole backend behind the payment gate is a part
of its world, and takes its turns as the outside.
-/

open Async

namespace Kreav

namespace ProductDelivery

/-! ## E-mails and their log -/

/-- How the sending ended. -/
inductive MailStatus
  | sent
  | simulated
  | failed
  deriving DecidableEq, Repr

/-- The outcome of an attempt. -/
structure MailResult where
  status : MailStatus
  providerMessageId : Option String
  error : Option String
  deriving DecidableEq, Repr

/-- What `send` is given. -/
structure MailInput where
  /-- The field `to`. -/
  recipient : String
  subject : String
  html : String
  deriving DecidableEq, Repr

/-- The settings of the mailer and the explorer, and the text of a transaction hash. -/
structure MailConfig where
  resendApiKey : Option String
  resendFrom : Option String
  explorerUrl : String
  hashText : TxHash → String

/-- The channel of a notification. -/
inductive NotificationChannel
  | email
  deriving DecidableEq, Repr

/-- The status of a notification. -/
inductive NotificationStatus
  | pending
  | sent
  | failed
  deriving DecidableEq, Repr

/-- A row of `notification_logs`. -/
structure NotificationRow where
  recipient : String
  channel : NotificationChannel
  event : String
  status : NotificationStatus
  attempts : ℕ
  providerMessageId : Option String
  lastError : Option String
  deriving DecidableEq, Repr

/-- The product of an order, as far as the e-mail needs it. -/
structure PurchasedProduct where
  title : String
  fileUrl : Option String
  deriving DecidableEq, Repr

/-- What the listener selects of an order. -/
structure Purchase where
  buyerEmail : String
  product : Option PurchasedProduct
  deriving DecidableEq, Repr

/-- The provider's response. Reading its text may fail. -/
structure MailResponse where
  ok : Bool
  status : ℕ
  text : Option String
  id : Option String
  deriving DecidableEq, Repr

/-! ## Requests -/

/-- The error of a request with its message. -/
inductive DeliveryError
  | fetch (message : String)
  | database (message : String)
  deriving DecidableEq, Repr

/-- The text of the error. -/
def DeliveryError.message : DeliveryError → String
  | .fetch message => message
  | .database message => message

/-- What the listener asks of the database and of the provider. -/
inductive DeliveryRequest
  | orderFindUnique (id : String)
  /-- The call of the provider. The order it is made for is no part of the e-mail. -/
  | fetch (orderId : String) (sender : Option String) (input : MailInput)
  | notificationLogCreate (data : NotificationRow)
  deriving DecidableEq, Repr

/-- The answers. -/
def DeliveryRequest.Ans : DeliveryRequest → Type
  | .orderFindUnique _ => Option Purchase
  | .fetch _ _ _ => MailResponse
  | .notificationLogCreate _ => Unit

/-- The requests of the listener. -/
abbrev delivery : Sig where
  Req := DeliveryRequest
  Ans := DeliveryRequest.Ans
  Event := Empty
  Error := DeliveryError

/-- A method of the listener. -/
abbrev DeliveryMethod (α : Type) :=
  Prog delivery α

/-- Await a request. -/
abbrev awaitD (r : DeliveryRequest) : DeliveryMethod r.Ans :=
  Prog.ask (S := delivery) r

/-! ## The mailer and the listener -/

/-- `MailerService.send`. -/
def send (mail : MailConfig) (orderId : String) (input : MailInput) :
    DeliveryMethod MailResult :=
  if mail.resendApiKey.getD "" = "" then return ⟨.simulated, none, none⟩
  else
    tryCatch (do
      let res : MailResponse ← awaitD (.fetch orderId mail.resendFrom input)
      if !res.ok then
        let status := "HTTP " ++ toString res.status
        return ⟨.failed, none, some (status ++ ": " ++ res.text.getD status)⟩
      else return ⟨.sent, res.id, none⟩)
    fun err => return ⟨.failed, none, some err.message⟩

/-- The e-mail of a purchase that was settled with the transaction. -/
def deliveryMail (mail : MailConfig) (buyerEmail : String) (product : PurchasedProduct)
    (txHash : TxHash) : MailInput where
  recipient := buyerEmail
  subject := "Your Kreav purchase is ready — " ++ product.title
  html := DeliveryEmail.buildEmail product.title
    (product.fileUrl.getD
      "No download URL was configured for this product. Contact the creator.")
    (txUrl mail.explorerUrl (mail.hashText txHash))

/-- The row for an attempt. -/
def logRow (buyerEmail : String) (result : MailResult) : NotificationRow where
  recipient := buyerEmail
  channel := .email
  event := "settlement.completed"
  status := if result.status = .failed then .failed else .sent
  attempts := 1
  providerMessageId :=
    if result.status = .simulated then some "SIMULATED" else result.providerMessageId
  lastError := result.error

/-- The listener of `settlement.completed`. -/
def handleSettlementCompleted (mail : MailConfig) (payload : SettlementCompletedPayload) :
    DeliveryMethod Unit :=
  tryCatch (do
    let order : Option Purchase ← awaitD (.orderFindUnique payload.orderId)
    match order with
    | none => return ()
    | some ⟨_, none⟩ => return ()
    | some ⟨buyerEmail, some product⟩ =>
      let result ← send mail payload.orderId
        (deliveryMail mail buyerEmail product payload.txHash)
      awaitD (.notificationLogCreate (logRow buyerEmail result)))
    fun _ => return ()

/-! ## The world -/

/-- An e-mail that the provider took, with the order it was sent for. -/
structure Mail where
  orderId : String
  sender : Option String
  input : MailInput
  deriving DecidableEq, Repr

/-- The backend in its run, the e-mails that the provider took, and the log. -/
structure PostWorld where
  backend : Config backend World Unit
  outbox : List Mail
  logs : List NotificationRow

/-- The outcome of one request, as far as the world does not determine it. -/
structure PostChoice where
  fault : Fault := .none
  response : MailResponse := ⟨true, 200, none, none⟩
  message : String := ""
  deriving DecidableEq, Repr

/-- The row of `order.findUnique` with the product. -/
def purchase (db : Database) (id : String) : Option Purchase :=
  (db.orders.lookup id).map fun o =>
    ⟨o.buyerEmail, (db.products.lookup o.productId).map fun p => ⟨p.title, p.fileUrl⟩⟩

/-- What a request answers and changes when no fault hits it. -/
def effect : (r : DeliveryRequest) → PostChoice → PostWorld → r.Ans × PostWorld
  | .orderFindUnique id, _, w => (purchase w.backend.world.db id, w)
  | .fetch orderId sender input, c, w =>
    (c.response,
      if c.response.ok then { w with outbox := w.outbox ++ [⟨orderId, sender, input⟩] } else w)
  | .notificationLogCreate data, _, w => ((), { w with logs := w.logs ++ [data] })

/-- The error that a request throws. -/
def DeliveryRequest.thrown (message : String) : DeliveryRequest → DeliveryError
  | .fetch _ _ _ => .fetch message
  | _ => .database message

/-- Requests with their faults. -/
def exec (r : DeliveryRequest) (c : PostChoice) (w : PostWorld) :
    Except DeliveryError r.Ans × PostWorld :=
  match c.fault with
  | .none => (.ok (effect r c w).1, (effect r c w).2)
  | .lost => (.error (r.thrown c.message), w)
  | .unacked => (.error (r.thrown c.message), (effect r c w).2)

/-- The listeners next to the backend. -/
def postOffice (cfg : StellarConfig) (gate : Gate) :
    Machine delivery PostWorld PostChoice (Turn Choice MarketStep Endpoint) where
  exec := exec
  log _ w := w
  env t w := { w with backend := w.backend.turn (market cfg) (Endpoint.method cfg gate) t }

/-- A listener that the `index`-th event of `settlement.completed` starts. -/
structure Listening where
  index : ℕ
  payload : SettlementCompletedPayload
  deriving DecidableEq, Repr

/-- The method of the listener. -/
def Listening.method (mail : MailConfig) (l : Listening) : DeliveryMethod Unit :=
  handleSettlementCompleted mail l.payload

end ProductDelivery

end Kreav
