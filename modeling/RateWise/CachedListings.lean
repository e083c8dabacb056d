import RateWise.Backend
import RateWise.CacheQueue
import RateWise.Inputs
import RateWise.Pagination
import RateWise.Solo

set_option autoImplicit false

namespace RateWise

namespace PaginationService

variable {T S : Type} {service : PaginationService T S}

variable (service) in
-- The queue keeps the data of a job as JSON.
def jobData (job : ICacheJobData T) : CacheQueue.Job Text S := ⟨job.key, service.serialise job.value⟩

theorem cached_page (store : PageStore service) (limit : Nat) (cursor : Option JsString) (sqbModifier : Option (T → Bool))
    (page : IPaginatedType T S) (jobs : List (ICacheJobData T))
    (listed : create store true limit cursor sqbModifier = .ok (page, jobs)) :
    (∀ node ∈ page.nodes, ∃ row ∈ store.rows, node = some (served store row)) ∧
    ∀ job ∈ jobs, job.value ∈ store.rows ∧ job.key = service.createCacheKeyFunction (service.id job.value).text := by
  have cached : createPaginationCached store limit cursor sqbModifier = .ok (page, jobs) := listed
  cases read : decodedCursor cursor with
  | error fault => simp [createPaginationCached, read, bind, Except.bind] at cached
  | ok decoded =>
      cases found : service.getPageAndTotalCount store.rows limit decoded sqbModifier with
      | error fault => simp [createPaginationCached, read, found, bind, Except.bind] at cached
      | ok pair =>
          obtain ⟨count, entries⟩ := pair
          obtain ⟨rows, rfl, part⟩ := page_listed store.rows limit decoded sqbModifier count entries found
          have stored : ∀ row ∈ rows, row ∈ store.rows := fun row member => part.subset member
          rw [pagination_cached_listed store limit cursor sqbModifier decoded read count rows found stored] at cached
          cases cached
          refine ⟨fun node member => ?_, fun job member => ?_⟩
          · obtain ⟨row, shown, rfl⟩ := List.mem_map.mp member
            exact ⟨row, stored row (List.mem_of_mem_take shown), rfl⟩
          · obtain ⟨record, fetched, rfl⟩ := List.mem_map.mp member
            exact ⟨((mem_fetch_records store _ record).mp fetched).1, rfl⟩

end PaginationService

inductive ListFault where
  | rejected (error : Err)
  | cursor (fault : CursorFault)

-- if (argument) await check(argument);
def ifGiven {α : Type} (hashtext : Text → Int32) (world : World) (argument : Option JsString) (check : Text → Async α) :
    Except ListFault Unit :=
  match argument.filter fun id => !id.isEmpty with
  | none => .ok ()
  | some id => match ((check (parameter id)).solo (engine hashtext) world none).1 with
    | .ok _ => .ok ()
    | .error error => .error (.rejected error)

theorem checked {α : Type} (check : Except ListFault Unit) (rest : Except ListFault α) (page : α)
    (answer : (do check; rest : Except ListFault α) = .ok page) : rest = .ok page := by
  cases check with
  | error fault => cases answer
  | ok _ => exact answer

theorem listed_without_fault {α : Type} (listing : Except CursorFault α) (page : α)
    (answer : listing.mapError ListFault.cursor = .ok page) : listing = .ok page := by
  cases listing with
  | error fault => cases answer
  | ok other =>
      cases answer
      rfl

end RateWise
