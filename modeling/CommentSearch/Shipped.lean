import CommentSearch.Files
import CommentSearch.Json.Writer
import CommentSearch.Mapping.Body

/-!
# Shipped files

The files that come with the library: the settings of queries, the policies of indexing, and a
mapping for each range of versions of the backend.
-/

namespace CommentSearch.Shipped

/-- The shipped settings of queries. -/
def querySettings : String :=
  "\n".intercalate
    ["# How requests are compiled, and how the index is provisioned.",
      "",
      "index:",
      "  name: comments",
      "",
      "pagination:",
      "  # The size of the window of a request that names none.",
      "  max_results_window: 10000",
      "",
      "search:",
      "  default_fields:",
      "    - comment_author",
      "    - comment_author_email",
      "    - comment_author_url",
      "    - comment_author_IP",
      "    - comment_content",
      "  phrase_boost: 4",
      "  match_boost: 2",
      "  fuzziness: 1",
      "",
      "mapping:",
      "  dir: config/mappings/comment",
      "  # The version of a backend that tells none.",
      "  fallback_version: \"2.0\"",
      ""]

/-- The shipped policies of indexing. -/
def metaPolicies : String :=
  "\n".intercalate
    ["# Which metadata is indexed. Keys that begin with an underscore are protected.",
      "",
      "meta:",
      "  allow_all_protected: false",
      "  allowed_protected_keys: []",
      "  exclude_all_public: false",
      "  excluded_public_keys: []",
      "  # Indexed in any case.",
      "  whitelist_keys: []",
      ""]

/-- The directory that the shipped files lie in. -/
def home : List String := ["srv", "comments"]

/-- The shipped files, in the current directory. -/
def files : Files where
  current := home
  texts :=
    [(home ++ ["config", "query.yaml"], querySettings),
      (home ++ ["config", "meta_policies.yaml"], metaPolicies),
      (home ++ ["config", "mappings", "comment", "pre-5-0.json"],
        Json.write (Mapping.typed .marked)),
      (home ++ ["config", "mappings", "comment", "initial.json"],
        Json.write (Mapping.typed .separate)),
      (home ++ ["config", "mappings", "comment", "7-0.json"],
        Json.write (Mapping.typeless .separate))]

end CommentSearch.Shipped
