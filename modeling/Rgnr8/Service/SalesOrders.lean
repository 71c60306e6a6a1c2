import Rgnr8.Service.ArAp
import Rgnr8.Service.Estimates

/-! Sales orders: what was agreed, what has been invoiced against it, and the invoices that draw an
order down line by line. -/

namespace Rgnr8.Service.SalesOrders
open Lib Lib.Js Fallible Kernel ArAp

inductive SalesOrderStatus where
  | opened | partlyInvoiced | fulfilled | closed | cancelled
  deriving DecidableEq

def SalesOrderStatus.text : SalesOrderStatus → String
  | .opened => "OPEN"
  | .partlyInvoiced => "PARTIAL"
  | .fulfilled => "FULFILLED"
  | .closed => "CLOSED"
  | .cancelled => "CANCELLED"

structure SalesOrderLineRecord where
  lineNo : Nat
  description : String
  costCode : String
  quantityMilli : Int
  invoicedMilli : Int
  unitPriceMinor : Int
  accountCode : String
  taxable : Bool
  deriving DecidableEq

structure SalesOrderRecord where
  id : String
  customerId : String
  jobId : String
  estimateId : String
  date : String
  requestedDate : String
  status : SalesOrderStatus
  taxRatePpm : JsNumber
  memo : String
  lines : List SalesOrderLineRecord
  deriving DecidableEq

structure SalesOrderStore where
  items : OrderedMap (TenantId × String) SalesOrderRecord
  id_of_get : ∀ {t id o}, items.get? (t, id) = some o → o.id = id

namespace SalesOrderStore

def empty : SalesOrderStore := ⟨.empty, nofun⟩

def get (s : SalesOrderStore) (tenant : TenantId) (id : String) : Option SalesOrderRecord :=
  s.items.get? (tenant, id)

def save (s : SalesOrderStore) (tenant : TenantId) (record : SalesOrderRecord) :
    SalesOrderStore where
  items := s.items.set (tenant, record.id) record
  id_of_get := by
    intro t id o h
    rw [OrderedMap.get?_set] at h
    split_ifs at h with hkey
    · rw [← Option.some.inj h, (Prod.mk.inj hkey).2]
    · exact s.id_of_get h

theorem get_save (s : SalesOrderStore) (tenant t : TenantId) (record : SalesOrderRecord)
    (id : String) : (s.save tenant record).get t id =
      if (t, id) = (tenant, record.id) then some record else s.get t id := OrderedMap.get?_set ..

end SalesOrderStore

structure SalesStores (π : Type) where
  books : ArApStores π
  jobs : JobStore
  estimates : Estimates.EstimateStore
  orders : SalesOrderStore

inductive SalesFailure where
  | own (message : String)
  /-- `order … has no line …` -/
  | noLine (lineNo : JsNumber)
  | arAp (e : ArApFailure)

def milli : Int := 1000

def requireDate (raw : Option String) (label : String) (required : Bool) :
    Except SalesFailure String :=
  let date := trim (raw.getD "")
  if date = "" then
    if required then .error (.own s!"{label} is required") else .ok ""
  else if ¬ isIsoDate date then .error (.own s!"{label} must be YYYY-MM-DD") else .ok date

def milliOf (raw : Option TextOrNumber) (label : String) : Except SalesFailure Int :=
  match digitsOnly raw with
  | none => .error (.own s!"{label} must be a whole number of thousandths")
  | some n => .ok n

/-! Taking an order. -/

structure SalesOrderLineInput where
  description : Option String
  costCode : Option String
  quantityMilli : Option TextOrNumber
  unitPriceMinor : Option TextOrNumber
  accountCode : Option String
  taxable : Option Bool

structure SalesOrderInput where
  id : Option String
  customerId : Option String
  jobId : Option String
  fromEstimate : Option String
  date : Option String
  requestedDate : Option String
  taxRatePpm : Option JsNumber
  memo : Option String
  lines : Option (List SalesOrderLineInput)

def linesFromEstimate (estimate : Estimates.EstimateRecord) : List SalesOrderLineRecord :=
  estimate.lines.zipIdx.map fun (l, i) => {
    lineNo := i + 1
    description := l.description
    costCode := l.costCode
    quantityMilli := l.quantityMilli
    invoicedMilli := 0
    unitPriceMinor := l.unitPriceMinor
    accountCode := l.accountCode
    taxable := l.taxable }

def acceptedEstimate (estimates : Estimates.EstimateStore) (tenant : TenantId) (id : String) :
    Except SalesFailure (Option Estimates.EstimateRecord) :=
  if id = "" then .ok none
  else match estimates.get tenant id with
    | none => .error (.own s!"unknown estimate {id}")
    | some estimate =>
      if estimate.status ≠ .accepted then .error (.own
        s!"estimate {id} is {estimate.status.text} — only an accepted estimate becomes an order")
      else .ok (some estimate)

def revenueCode (chart : ChartOfAccounts) (raw : Option String) : Except SalesFailure String :=
  let code := if trim (raw.getD "") = "" then
      if (chart.getByCode "4100").isSome then "4100" else "4000"
    else trim (raw.getD "")
  match chart.getByCode code with
  | none => .error (.own s!"unknown account code {code}")
  | some account =>
    if account.type ≠ .revenue then .error (.own s!"{code} is not a revenue account") else .ok code

def orderLine (chart : ChartOfAccounts) (costCodes : List String)
    (existing : Option SalesOrderRecord) (lineNo : Nat) (l : SalesOrderLineInput) :
    Except SalesFailure SalesOrderLineRecord := do
  let quantity ← milliOf (some (l.quantityMilli.getD (.number (some 1000)))) s!"line {lineNo} quantity"
  refuse (quantity = 0) (.own s!"line {lineNo}: quantity must be more than zero")
  let unitPrice ← milliOf l.unitPriceMinor s!"line {lineNo} unit price"
  refuse (unitPrice = 0) (.own s!"line {lineNo}: needs a price")
  let accountCode ← revenueCode chart l.accountCode
  let costCode := JobBudgets.codeOf l.costCode
  refuse (costCode ≠ "" ∧ costCode ∉ costCodes) (.own s!"unknown cost code {costCode}")
  let before := existing.bind fun e => e.lines.find? fun x => x.lineNo = lineNo
  return {
    lineNo := lineNo
    description := trim (l.description.getD "")
    costCode := costCode
    quantityMilli := quantity
    invoicedMilli := (before.map SalesOrderLineRecord.invoicedMilli).getD 0
    unitPriceMinor := unitPrice
    accountCode := accountCode
    taxable := l.taxable ≠ some false }

def orderLines (chart : ChartOfAccounts) (costCodes : List String)
    (existing : Option SalesOrderRecord) :
    Nat → List SalesOrderLineInput → Except SalesFailure (List SalesOrderLineRecord)
  | _, [] => return []
  | lineNo, l :: ls => do
    let line ← orderLine chart costCodes existing lineNo l
    let rest ← orderLines chart costCodes existing (lineNo + 1) ls
    return line :: rest

def linesOf (chart : ChartOfAccounts) (costCodes : List String) (existing : Option SalesOrderRecord)
    (typed : List SalesOrderLineInput) (estimate : Option Estimates.EstimateRecord) :
    Except SalesFailure (List SalesOrderLineRecord) :=
  if typed ≠ [] then orderLines chart costCodes existing 1 typed
  else match estimate with
    | some e => .ok (linesFromEstimate e)
    | none => .error (.own "an order needs at least one line")

def dateBefore (a b : String) : Bool := a < b

def salesOrderOf {π : Type} (tenant : TenantId) (chart : ChartOfAccounts) (input : SalesOrderInput)
    (s : SalesStores π) : Except SalesFailure SalesOrderRecord := do
  let fromEstimate := trim (input.fromEstimate.getD "")
  let estimate ← acceptedEstimate s.estimates tenant fromEstimate
  let customerId := trim ((input.customerId.or (estimate.map (·.customerId))).getD "")
  refuse (customerId = "") (.own "an order needs a customer")
  refuse (s.books.docs.getParty tenant .customer customerId = none)
    (.own s!"unknown customer {customerId}")
  let jobId := trim ((input.jobId.or (estimate.map (·.jobId))).getD "")
  refuse (jobId ≠ "" ∧ s.jobs.getJob tenant jobId = none) (.own s!"unknown job {jobId}")
  let date ← requireDate (input.date.or (estimate.map (·.date))) "date" true
  let requestedDate ← requireDate input.requestedDate "requested date" false
  refuse (requestedDate ≠ "" ∧ dateBefore requestedDate date)
    (.own "the requested date is before the order date")
  let typedId := trim (input.id.getD "")
  let id := if typedId ≠ "" then typedId else match estimate with
    | some e => s!"SO-{e.rootId}"
    | none => "SO-" ++ String.ofList (date.toList.filter (· ≠ '-'))
  let existing := s.orders.get tenant id
  refuse (existing.any fun e => e.lines.any fun l => 0 < l.invoicedMilli)
    (.own s!"order {id} has already been invoiced against — change what is left, not the order")
  let lines ← linesOf chart ((s.jobs.listCostCodes tenant).map CostCodeRecord.code) existing
    (input.lines.getD []) estimate
  return {
    id := id
    customerId := customerId
    jobId := jobId
    estimateId := if fromEstimate ≠ "" then fromEstimate
      else (existing.map SalesOrderRecord.estimateId).getD ""
    date := date
    requestedDate := requestedDate
    status := (existing.map SalesOrderRecord.status).getD .opened
    taxRatePpm := (input.taxRatePpm.or (estimate.map (·.taxRatePpm))).getD (some 0)
    memo := trim ((input.memo.or (estimate.map (·.memo))).getD "")
    lines := lines }

def saveSalesOrder {π : Type} (tenant : TenantId) (chart : ChartOfAccounts)
    (input : SalesOrderInput) (s : SalesStores π) :
    Except SalesFailure SalesOrderRecord × SalesStores π :=
  match salesOrderOf tenant chart input s with
  | .error e => (.error e, s)
  | .ok record => (.ok record, { s with orders := s.orders.save tenant record })

/-! Drawing an order down. -/

def statusFor (status : SalesOrderStatus) (lines : List SalesOrderLineRecord) : SalesOrderStatus :=
  if status = .cancelled ∨ status = .closed then status
  else if lines.all fun l => l.quantityMilli ≤ l.invoicedMilli then .fulfilled
  else if lines.any fun l => 0 < l.invoicedMilli then .partlyInvoiced else .opened

structure InvoiceLineInput where
  lineNo : Option JsNumber
  quantityMilli : Option TextOrNumber

structure InvoiceFromOrderInput where
  id : Option String
  date : Option String
  dueDate : Option String
  memo : Option String
  lines : Option (List InvoiceLineInput)

def SalesOrderLineRecord.remaining (l : SalesOrderLineRecord) : Int :=
  l.quantityMilli - l.invoicedMilli

variable (order : SalesOrderRecord)

def lineNamed (l : InvoiceLineInput) : Except SalesFailure SalesOrderLineRecord :=
  let lineNo := l.lineNo.getD (some 0)
  match order.lines.find? fun x => integerOf lineNo = some (x.lineNo : Int) with
  | none => .error (.noLine lineNo)
  | some line => .ok line

def quantityAsked (line : SalesOrderLineRecord) (l : InvoiceLineInput) : Except SalesFailure Int :=
  if Estimates.isTyped l.quantityMilli then milliOf l.quantityMilli s!"line {line.lineNo} quantity"
  else .ok line.remaining

def wantedLines (order : SalesOrderRecord) :
    List InvoiceLineInput → OrderedMap Nat Int → Except SalesFailure (OrderedMap Nat Int)
  | [], wanted => return wanted
  | l :: ls, wanted => do
    let line ← lineNamed order l
    let quantity ← quantityAsked line l
    refuse (0 < quantity ∧ line.remaining < quantity) (.own (s!"line {line.lineNo}: only " ++
      s!"{line.remaining} thousandths are left to invoice, not {quantity}"))
    wantedLines order ls (if quantity ≤ 0 then wanted else wanted.set line.lineNo quantity)

def outstanding (lines : List SalesOrderLineRecord) : OrderedMap Nat Int :=
  lines.foldl (fun wanted l => if 0 < l.remaining then wanted.set l.lineNo l.remaining else wanted)
    .empty

def wantedOf (named : List InvoiceLineInput) : Except SalesFailure (OrderedMap Nat Int) :=
  if named ≠ [] then wantedLines order named .empty else .ok (outstanding order.lines)

variable (wanted : OrderedMap Nat Int) (l : SalesOrderLineRecord)

def quantityOn : Int :=
  (wanted.get? l.lineNo).getD 0

def lineDimensions : Option Dimensions :=
  if order.jobId = "" then none
  else
    let ofJob := (OrderedMap.empty : Dimensions).set jobDimension order.jobId
    some (if l.costCode = "" then ofJob else ofJob.set costCodeDimension l.costCode)

def requestLine : DocumentLineInput where
  description := some l.description
  quantity := none
  unitAmountMinor := .text (toString (mulDiv (quantityOn wanted l) l.unitPriceMinor milli))
  accountCode := l.accountCode
  taxable := some l.taxable
  dimensions := lineDimensions order l

def drawnOn (lines : List SalesOrderLineRecord) :
    List SalesOrderLineRecord := lines.filter fun l => quantityOn wanted l ≠ 0

def drawnLine : SalesOrderLineRecord :=
  { l with invoicedMilli := l.invoicedMilli + quantityOn wanted l }

structure InvoiceDraft where
  request : CreateDocumentRequest
  order : SalesOrderRecord

def draftFor (input : InvoiceFromOrderInput) : Except SalesFailure InvoiceDraft := do
  refuse (order.status = .cancelled) (.own s!"order {order.id} was cancelled")
  let wanted ← wantedOf order (input.lines.getD [])
  refuse (wanted.entries = []) (.own s!"order {order.id} has nothing left to invoice")
  let date ← requireDate (input.date.or (some order.date)) "date" true
  let invoiceId := trim (input.id.getD "")
  refuse (invoiceId = "") (.own "the invoice needs an id")
  let memo := (input.memo.or (some order.memo)).getD ""
  let lines := order.lines.map (drawnLine wanted)
  return {
    request := {
      id := invoiceId
      partyId := order.customerId
      date := date
      dueDate := nonBlank input.dueDate
      termsDays := none
      memo := some (if memo = "" then s!"From order {order.id}" else memo)
      lines := (drawnOn wanted order.lines).map (requestLine order wanted)
      accounts := ⟨none, none, none⟩
      taxRatePpm := some order.taxRatePpm
      salesTaxCode := none }
    order := { order with lines := lines, status := statusFor order.status lines } }

def invoiceFromOrder (orders : SalesOrderStore) (tenant : TenantId) (orderId : String)
    (input : InvoiceFromOrderInput) : Except SalesFailure InvoiceDraft :=
  match orders.get tenant orderId with
  | none => .error (.own s!"unknown order {orderId}")
  | some order => draftFor order input

structure InvoiceCall where
  arAp : ArApContext
  orderId : String
  input : InvoiceFromOrderInput

structure Invoiced where
  order : SalesOrderRecord
  invoice : DocRecord
  entryId : EntryId

section
variable {π : Type} [PeriodStore π]

def InvoiceCall.serve (r : InvoiceCall) (s : SalesStores π) :
    Except SalesFailure Invoiced × SalesStores π :=
  match invoiceFromOrder s.orders r.arAp.tenant r.orderId r.input with
  | .error e => (.error e, s)
  | .ok draft =>
    match (createDocument .invoice draft.request r.arAp).run ArApCall.exec s.books with
    | (.error e, books) => (.error (.arAp e), { s with books := books })
    | (.ok result, books) => (.ok ⟨draft.order, result.doc, result.entryId⟩,
        { s with books := books, orders := s.orders.save r.arAp.tenant draft.order })

def step (s : SalesStores π) (r : InvoiceCall) : SalesStores π := (r.serve s).2

end

end Rgnr8.Service.SalesOrders
