import Rgnr8.Service.ArAp
import Rgnr8.Service.BookOfRecord

/-! Cutover from QuickBooks to RGNR8, and the way back: a plan that writes nothing, an execution
that writes the open items down as documents, a backout that deletes them. -/

namespace Rgnr8.Service.Cutover
open Lib Lib.Js Kernel Settings

structure OpenItem where
  kind : DocKind
  qboId : String
  number : String
  party : String
  date : String
  dueDate : String
  openMinor : Int

/-- The day QuickBooks was read, empty when no copy has been taken. -/
structure OpenItemsSnapshot where
  asOf : String
  items : List OpenItem

def emptySnapshot : OpenItemsSnapshot := ⟨"", []⟩

structure PlannedDoc where
  kind : DocKind
  id : String
  partyId : String
  partyName : String
  date : String
  dueDate : String
  openMinor : Int
  qboId : String

inductive Control where
  | accountsReceivable | accountsPayable

def Control.text : Control → String
  | accountsReceivable => "Accounts Receivable"
  | accountsPayable => "Accounts Payable"

structure TieOut where
  control : Control
  booksMinor : Int
  openItemsMinor : Int
  differenceMinor : Int

structure CutoverPlan where
  cutoverDate : String
  openItemsAsOf : String
  docs : List PlannedDoc
  tieOut : List TieOut
  blockers : List String
  hash : String

/-- The tenant's side of a request. The clock is read for the working date and again for the
record; `sha256` is the hex digest, `localeLe` the order of `localeCompare`. -/
structure CutoverContext where
  tenant : TenantId
  currency : Currency
  now : String
  recordedAt : String
  localeLe : String → String → Bool
  sha256 : String → String

structure OwnStores where
  documents : InMemoryDocumentStore
  openItems : OrderedMap TenantId OpenItemsSnapshot
  charts : InMemoryChartStore

instance : ChartStore OwnStores where
  saveChart s tenant coa := { s with charts := ChartStore.saveChart s.charts tenant coa }

inductive OwnCall where
  | chart (tenant : TenantId)
  | getOpenItems (tenant : TenantId)
  | replaceOpenItems (tenant : TenantId) (snapshot : OpenItemsSnapshot)
  | getParty (tenant : TenantId) (kind : PartyKind) (id : String)
  | upsertParty (tenant : TenantId) (kind : PartyKind) (party : PartyRecord)
  | getDoc (tenant : TenantId) (kind : DocKind) (id : String)
  | saveDoc (tenant : TenantId) (doc : DocRecord)
  | deleteDoc (tenant : TenantId) (kind : DocKind) (id : String)

abbrev OwnCall.Answer : OwnCall → Type
  | chart _ => ChartOfAccounts
  | getOpenItems _ => OpenItemsSnapshot
  | getParty _ _ _ => Option PartyRecord
  | getDoc _ _ _ => Option DocRecord
  | replaceOpenItems _ _ | upsertParty _ _ _ | saveDoc _ _ | deleteDoc _ _ _ => Unit

namespace OwnStores

def chartOf (s : OwnStores) (tenant : TenantId) : ChartOfAccounts :=
  (s.charts.get? tenant).getD .empty

def openItemsOf (s : OwnStores) (tenant : TenantId) : OpenItemsSnapshot :=
  (s.openItems.get? tenant).getD emptySnapshot

end OwnStores

def OwnCall.exec : (c : OwnCall) → OwnStores → c.Answer × OwnStores
  | chart tenant, s => (s.chartOf tenant, s)
  | getOpenItems tenant, s => (s.openItemsOf tenant, s)
  | replaceOpenItems tenant snapshot, s =>
    ((), { s with openItems := s.openItems.set tenant snapshot })
  | getParty tenant kind id, s => (s.documents.getParty tenant kind id, s)
  | upsertParty tenant kind party, s =>
    ((), { s with documents := s.documents.upsertParty tenant kind party })
  | getDoc tenant kind id, s => (s.documents.getDoc tenant kind id, s)
  | saveDoc tenant doc, s => ((), { s with documents := s.documents.saveDoc tenant doc })
  | deleteDoc tenant kind id, s =>
    ((), { s with documents := s.documents.deleteDoc tenant kind id })

abbrev CutoverProg := BackendProg OwnCall OwnCall.Answer

def own (c : OwnCall) : CutoverProg c.Answer := Prog.perform (BackendCall.own c)

def isMonthEnd (date : String) : Bool :=
  isIsoDate date ∧ (utcDay date).any fun day => (civilOfDays (day + 1)).2.2 = 1

/-- Lower case, as far as it can yield letters and digits of ASCII. -/
def slugChars (s : String) : List Char :=
  s.toList.flatMap fun c =>
    -- a dotted capital I is an i and a combining dot
    if c.toNat = 0x130 then ['i', Char.ofNat 0x307] else [lowerChar c]

def isSlugChar (c : Char) : Bool := ('a' ≤ c ∧ c ≤ 'z') ∨ ('0' ≤ c ∧ c ≤ '9')

def dashed : List Char → (inRun : Bool) → List Char
  | [], _ => []
  | c :: cs, inRun =>
    if isSlugChar c then c :: dashed cs false
    else if inRun then dashed cs true
    else '-' :: dashed cs true

def stripDash : List Char → List Char
  | '-' :: cs => cs
  | cs => cs

def slug (s : String) : String :=
  let stripped := (stripDash (stripDash (dashed (slugChars s) false)).reverse).reverse
  let short := String.ofList (stripped.take 60)
  if short = "" then "unnamed" else short

def plannedDoc (i : OpenItem) : PlannedDoc where
  kind := i.kind
  id := match i.kind with
    | .invoice => if i.number = "" then s!"QBO-INV-{i.qboId}" else i.number
    | .bill => s!"QBO-BILL-{i.qboId}"
  partyId := match i.kind with
    | .invoice => s!"qbo-c-{slug i.party}"
    | .bill => s!"qbo-v-{slug i.party}"
  partyName := if i.party = "" then
    match i.kind with
    | .invoice => "Customer"
    | .bill => "Vendor"
    else i.party
  date := i.date
  dueDate := if i.dueDate = "" then i.date else i.dueDate
  openMinor := i.openMinor
  qboId := i.qboId

def businessToday (claimed nowIso : String) : String :=
  let utc := String.ofList (nowIso.toList.take 10)
  if ¬ isIsoDate claimed then utc
  else match utcDay claimed, utcDay utc with
    | some a, some b => if (a - b).natAbs ≤ 1 then claimed else utc
    | _, _ => utc

def blocker (p : Prop) [Decidable p] (message : String) : List String := if p then [message] else []

def ownEntries (entries : List PostedEntry) : List PostedEntry :=
  entries.filter fun e => ¬ isQuickBooksCopy e.toDraftEntry

def lastCopy (entries : List PostedEntry) : String :=
  (sortKeys (entries.map fun e => e.entryDate)).getLast?.getD ""

def previousBlockers (previous : Option CutoverRecord) : List String :=
  blocker (previous.map (fun r => r.state) = some .executing)
    "a previous cutover didn't finish: back it out first, then plan again"

def bookBlockers (settings : AccountSettings) : List String :=
  blocker (settings.bookOfRecord ≠ .quickbooks)
    "RGNR8 is already the book of record for this account"

def dateBlockers (cutoverDate today : String) : List String :=
  if ¬ isMonthEnd cutoverDate then
    [(if cutoverDate = "" then "the cutover date" else cutoverDate) ++
      " is not the last day of a month: a cutover mid-month would lock the rest of that month"]
  else blocker (¬ Before cutoverDate today)
    s!"{cutoverDate} hasn't ended yet: cut over once the month is closed"

def entryBlockers (cutoverDate : String) (entries : List PostedEntry) : List String :=
  let count := (ownEntries entries).length
  let ending := if count = 1 then "y" else "ies"
  let last := lastCopy entries
  let shown := if last = "" then "no date" else last
  blocker (count ≠ 0) (s!"the books hold {count} entr{ending} that didn't " ++
    "come from QuickBooks, so they are no longer an exact copy to cut over from") ++
  blocker (cutoverDate ≠ "" ∧ Before last cutoverDate) ("the books were last brought level with " ++
    s!"QuickBooks on {shown}; Refresh after {cutoverDate} first")

def snapshotBlockers (cutoverDate : String) (snapshot : OpenItemsSnapshot) : List String :=
  if snapshot.asOf = "" then
    ["QuickBooks' open invoices and bills haven't been copied yet: Refresh first"]
  else blocker (cutoverDate ≠ "" ∧ Before snapshot.asOf cutoverDate)
    (s!"the open invoices and bills were copied on {snapshot.asOf}, before the " ++
      s!"cutover date; Refresh after {cutoverDate} first")

def docBlockers (tenant : TenantId) : List PlannedDoc → (seen : List (DocKind × String)) →
    (blockers : List String) → CutoverProg (List String)
  | [], _, blockers => return blockers
  | d :: docs, seen, blockers => do
    let twice := blocker ((d.kind, d.id) ∈ seen)
      s!"two open {d.kind.text}s would both be numbered {d.id}"
    let doc ← own (.getDoc tenant d.kind d.id)
    let exists_ := blocker ((doc : Option DocRecord).isSome = true)
      s!"an {d.kind.text} numbered {d.id} already exists in RGNR8"
    docBlockers tenant docs ((d.kind, d.id) :: seen) (blockers ++ twice ++ exists_)

def controlBalance (rows : List TrialBalanceRow) (subtype : AccountSubtype) : Int :=
  ((rows.filter fun r => r.subtype = some subtype).map fun r =>
    r.debit.minorUnits - r.credit.minorUnits).sum

def controlBlockers (rows : List TrialBalanceRow) (subtype : AccountSubtype) (label : String) :
    List String :=
  let held := rows.filter fun r => r.subtype = some subtype ∧
    r.debit.minorUnits - r.credit.minorUnits ≠ 0
  let codes := ", ".intercalate (held.map fun r => r.code)
  blocker (1 < held.length) (s!"balances sit in {held.length} {label} accounts " ++
    s!"({codes}): combine them in QuickBooks first, or RGNR8 would clear them all through one")

def openSumOf (docs : List PlannedDoc) (kind : DocKind) : Int :=
  ((docs.filter fun d => d.kind = kind).map fun d => d.openMinor).sum

def tieOutOf (docs : List PlannedDoc) (rows : List TrialBalanceRow) : List TieOut :=
  let ar := controlBalance rows .accountsReceivable
  let ap := -controlBalance rows .accountsPayable
  [⟨.accountsReceivable, ar, openSumOf docs .invoice, openSumOf docs .invoice - ar⟩,
    ⟨.accountsPayable, ap, openSumOf docs .bill, openSumOf docs .bill - ap⟩]

def planText (cutoverDate openItemsAsOf : String) (docs : List PlannedDoc) (tieOut : List TieOut)
    (entries : Nat) : String :=
  jsonObject [("cutoverDate", jsonText cutoverDate), ("openItemsAsOf", jsonText openItemsAsOf),
    ("docs", jsonArray (docs.map fun d => jsonArray ([d.kind.text, d.id, d.partyId, d.date,
      d.dueDate, toString d.openMinor].map jsonText))),
    ("tieOut", jsonArray (tieOut.map fun t => jsonArray ([t.control.text, toString t.booksMinor,
      toString t.openItemsMinor].map jsonText))),
    ("entries", toString entries)]

variable (ctx : CutoverContext)

def planCutover (cutoverDate todayOverride : String) : CutoverProg CutoverPlan := do
  let today := businessToday todayOverride ctx.now
  let settings ← Prog.perform (BackendCall.getSettings ctx.tenant)
  let previous ← Prog.perform (BackendCall.getCutover ctx.tenant)
  let entries ← Prog.perform (BackendCall.listEntries ctx.tenant)
  let snapshot ← own (.getOpenItems ctx.tenant)
  let docs := (snapshot : OpenItemsSnapshot).items.map plannedDoc
  let blockers ← docBlockers ctx.tenant docs []
    (previousBlockers previous ++ bookBlockers settings ++ dateBlockers cutoverDate today ++
      entryBlockers cutoverDate entries ++ snapshotBlockers cutoverDate snapshot)
  let chart ← own (.chart ctx.tenant)
  let journal ← Prog.perform (BackendCall.listEntries ctx.tenant)
  let rows := (computeTrialBalance ctx.localeLe chart ctx.currency none journal).rows
  let tieOut := tieOutOf docs rows
  return {
    cutoverDate := cutoverDate
    openItemsAsOf := snapshot.asOf
    docs := docs
    tieOut := tieOut
    blockers := blockers ++ controlBlockers rows .accountsReceivable "receivable" ++
      controlBlockers rows .accountsPayable "payable"
    hash := ctx.sha256 (planText cutoverDate snapshot.asOf docs tieOut
      (entries : List PostedEntry).length) }

structure ExecuteRequest where
  cutoverDate : String
  signedBy : String
  reportHash : String
  acceptDifferences : Bool
  today : Option String

def PlannedDoc.key (d : PlannedDoc) : DocKind × String := (d.kind, d.id)

def docRecord (cutoverDate controlCode : String) (d : PlannedDoc) : DocRecord where
  id := d.id
  kind := d.kind
  partyId := d.partyId
  date := d.date
  dueDate := d.dueDate
  netMinor := d.openMinor
  taxMinor := 0
  taxRatePpm := 0
  totalMinor := d.openMinor
  openMinor := d.openMinor
  status := .opened
  memo := s!"Open in QuickBooks at cutover on {cutoverDate} (QuickBooks id {d.qboId})"
  lines := [⟨"Balance open in QuickBooks at cutover", 1, d.openMinor, controlCode, d.openMinor, false,
    none⟩]

def partyKindOf : DocKind → PartyKind
  | .invoice => .customer
  | .bill => .vendor

def ensureParty (tenant : TenantId) (d : PlannedDoc) : CutoverProg Unit := do
  let party ← own (.getParty tenant (partyKindOf d.kind) d.partyId)
  if (party : Option PartyRecord).isSome then return ()
  else own (.upsertParty tenant (partyKindOf d.kind) ⟨d.partyId, d.partyName, none⟩)

def makeDocs (tenant : TenantId) (cutoverDate : String) (controls : DocKind → String) :
    List PlannedDoc → CutoverProg Unit
  | [] => return ()
  | d :: docs => do
    ensureParty tenant d
    own (.saveDoc tenant (docRecord cutoverDate (controls d.kind) d))
    makeDocs tenant cutoverDate controls docs

def controlCode (ctx : CutoverContext) (subtype : AccountSubtype) (fallback : String) :
    CutoverProg String := do
  let chart ← own (.chart ctx.tenant)
  return ArAp.controlCode ctx.localeLe chart subtype fallback

def begunRecord (req : ExecuteRequest) (plan : CutoverPlan) : CutoverRecord where
  cutoverDate := plan.cutoverDate
  signedBy := trim req.signedBy
  reportHash := plan.hash
  executedAt := ctx.recordedAt
  docs := plan.docs.map PlannedDoc.key
  state := .executing
  backedOutAt := ""

def tieOutBlocker (plan : CutoverPlan) : String :=
  let differs := plan.tieOut.filter fun t => t.differenceMinor ≠ 0
  " and ".intercalate (differs.map fun t => t.control.text) ++ " don't tie to the open items; " ++
    "the signer has to accept the difference shown in the report"

def writeCutover (plan : CutoverPlan) (settings : AccountSettings) (begun : CutoverRecord) :
    CutoverProg Unit := do
  let arCode ← controlCode ctx .accountsReceivable ArAp.defaultControls.arCode
  let apCode ← controlCode ctx .accountsPayable ArAp.defaultControls.apCode
  makeDocs ctx.tenant plan.cutoverDate (fun kind => match kind with
    | .invoice => arCode
    | .bill => apCode) plan.docs
  Prog.perform (BackendCall.ledger (.periods (.lockThrough ctx.tenant
    (String.ofList (plan.cutoverDate.toList.take 7)))))
  Prog.perform (BackendCall.saveSettings ctx.tenant { settings with bookOfRecord := .rgnr8 })
  Prog.perform (BackendCall.saveCutover ctx.tenant { begun with state := .live })

def executeCutover (req : ExecuteRequest) : CutoverProg (CutoverRecord × CutoverPlan) := do
  Prog.refuseIf (trim req.signedBy = "")
    (.thrown "cutover needs the name of the person who signed the report")
  let plan ← planCutover ctx req.cutoverDate (req.today.getD "")
  Prog.refuseIf (plan.blockers ≠ []) (.thrown ("; ".intercalate plan.blockers))
  Prog.refuseIf (plan.hash ≠ req.reportHash)
    (.thrown "the books changed after the report was signed: review the new report")
  Prog.refuseIf ((∃ t ∈ plan.tieOut, t.differenceMinor ≠ 0) ∧ req.acceptDifferences = false)
    (.thrown (tieOutBlocker plan))
  let settings ← Prog.perform (BackendCall.getSettings ctx.tenant)
  let begun := begunRecord ctx req plan
  Prog.perform (BackendCall.saveCutover ctx.tenant begun)
  writeCutover ctx plan settings begun
  -- last: until here, a backout and a fresh plan still have the copy to use
  own (.replaceOpenItems ctx.tenant emptySnapshot)
  return ({ begun with state := .live }, plan)

def paidDoc (tenant : TenantId) : List (DocKind × String) → CutoverProg String
  | [] => return ""
  | (kind, id) :: docs => do
    let doc ← own (.getDoc tenant kind id)
    if (doc : Option DocRecord).any fun doc => doc.openMinor ≠ doc.totalMinor then
      return s!"{kind.text} {id} has had a payment recorded in RGNR8 since the cutover"
    else paidDoc tenant docs

/-- Why a backout can't happen now, empty when it can. -/
def backoutBlocker : CutoverProg String := do
  let record ← Prog.perform (BackendCall.getCutover ctx.tenant)
  match (record : Option CutoverRecord) with
  | none => return "there is no cutover to back out"
  | some record =>
    if cutoverActive (some record) = false then return "there is no cutover to back out"
    else
      let entries ← Prog.perform (BackendCall.listEntries ctx.tenant)
      if ownEntries entries ≠ [] then
        return "RGNR8 has recorded its first entries since the cutover; backing out would lose them"
      else paidDoc ctx.tenant record.docs

def deleteDocs (tenant : TenantId) : List (DocKind × String) → CutoverProg Unit
  | [] => return ()
  | (kind, id) :: docs => do
    own (.deleteDoc tenant kind id)
    deleteDocs tenant docs

/-- Undo a cutover that RGNR8 hasn't built on yet. -/
def backOutCutover : CutoverProg CutoverRecord := do
  let blocker ← backoutBlocker ctx
  Prog.refuseIf (blocker ≠ "") (.thrown blocker)
  let record ← Prog.perform (BackendCall.getCutover ctx.tenant)
  match (record : Option CutoverRecord) with
  | none => .throw (.thrown "there is no cutover to back out")
  | some record =>
    deleteDocs ctx.tenant record.docs
    let settings ← Prog.perform (BackendCall.getSettings ctx.tenant)
    Prog.perform (BackendCall.saveSettings ctx.tenant { settings with bookOfRecord := .quickbooks })
    let backedOut := { record with state := .backedOut, backedOutAt := ctx.recordedAt }
    Prog.perform (BackendCall.saveCutover ctx.tenant backedOut)
    return backedOut

end Rgnr8.Service.Cutover
