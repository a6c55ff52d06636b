import Renewal.Rule.Basic

/-! # The rules for server scripts

Which commands of the NaviServer API are deprecated, which should be modernized, and which can be
replaced. A rule works on what the rules before it have left.
-/

namespace Renewal.RuleSet

/-- Deprecated commands, with or without a replacement. -/
def deprecatedCommands : List Text := ([
  "Paren", "env", "getformdata", "issmallint", "ns_adp_compress", "ns_adp_eval", "ns_adp_mime",
  "ns_adp_registertag", "ns_adp_safeeval", "ns_adp_stream", "ns_browsermatch", "ns_cancel",
  "ns_checkurl", "ns_chmod", "ns_choosecharset", "ns_conncptofp", "ns_connsendfp",
  "ns_cookiecharset", "ns_cp", "ns_cpfp", "ns_db verbose", "ns_event", "ns_formfieldcharset",
  "ns_formvalueput", "ns_getchannels", "ns_geturl", "ns_hmac_sha2", "ns_httpget", "ns_httpopen",
  "ns_httppost", "ns_ictl oncleanup", "ns_ictl oncreate", "ns_ictl ondelete", "ns_ictl oninit",
  "ns_info filters", "ns_info pagedir", "ns_info pageroot", "ns_info platform",
  "ns_info requestprocs", "ns_info tcllib", "ns_info traces", "ns_info url2file", "ns_info winnt",
  "ns_isformcached", "ns_limits_get", "ns_limits_list", "ns_limits_register", "ns_limits_set",
  "ns_link", "ns_mkdir", "ns_paren", "ns_parsetime", "ns_passwordcheck", "ns_pooldescription",
  "ns_puts", "ns_register_adptag", "ns_rename", "ns_resetcachedform", "ns_returnadminnotice",
  "ns_rmdir", "ns_server keepalive", "ns_set new", "ns_set print", "ns_set_precision", "ns_sha2",
  "ns_startcontent", "ns_subnetmatch", "ns_tagelement", "ns_tagelementset", "ns_thread begin",
  "ns_thread begindetached", "ns_thread get", "ns_thread getid", "ns_thread join", "ns_tmpnam",
  "ns_unlink", "ns_unregister_proc", "ns_updateheader", "ns_var", "ns_writecontent"] :
  List String).map Text.ofString

/-- The operations on sets that an option has taken the place of. -/
def modernizeCommands : List Text := ([
  "ns_set icput", "ns_set idelkey", "ns_set ifind", "ns_set iget", "ns_set imerge",
  "ns_set iunique"] :
  List String).map Text.ofString

/-- The substitutions, in the order in which they are applied. -/
def serverRules : List Rule := [
  { pattern := "ns_adp_mime", replacement := "ns_adp_mimetype" },
  { pattern := "ns_adp_registertag", replacement := "ns_adp_registeradp" },
  { pattern := "ns_cancel", replacement := "ns_unschedule_proc" },
  { pattern := "ns_chmod\\s+([a-zA-Z$\"]+) +([0-9]+)",
    replacement := "file attributes \\1 -permissions \\2" },
  { pattern := "ns_conncptofp", replacement := "ns_conn copy 0 [ns_conn contentlength]" },
  { pattern := "ns_cp", replacement := "file copy" },
  { pattern := "ns_cpfp", replacement := "fcopy" },
  { pattern := "ns_info\\s+pageroot", replacement := "ns_server pagedir" },
  { pattern := "ns_info\\s+tcllib", replacement := "ns_server tcllib" },
  { pattern := "ns_link", replacement := "file link -hard" },
  { pattern := "ns_mkdir", replacement := "file mkdir" },
  { pattern := "ns_puts", replacement := "ns_adp_puts" },
  { pattern := "ns_register_adptag", replacement := "ns_adp_registerscript" },
  { pattern := "ns_rmdir", replacement := "file delete" },
  { pattern := "ns_server\\s+keepalive", replacement := "ns_conn keepalived" },
  { pattern := "ns_set\\s+new", replacement := "ns_set create", wholeWord := false },
  { pattern := "ns_subnetmatch", replacement := "ns_ip match" },
  { pattern := "ns_thread\\s+get", replacement := "ns_thread handle" },
  { pattern := "ns_thread\\s+getid", replacement := "ns_thread id" },
  { pattern := "ns_thread\\s+join", replacement := "ns_thread wait" },
  { pattern := "ns_thread\\s+start", replacement := "ns_thread create" },
  { pattern := "ns_tmpnam", replacement := "ns_mktemp" },
  { pattern := "ns_unlink", replacement := "file delete" },
  { pattern := "ns_checkurl", replacement := "ns_requestauthorize" }]

/-- What takes the place of a call that handles received content. -/
def contentCopy : Text := "ns_conn copy 0 [ns_conn contentlength]"

/-- Why a call that handles received content is left to a person. -/
def contentSpooling : Text := .concat [
  "Predates spooling of received content to a file (and chunked encoding), so the calling ",
  "logic has to be inspected; ns_getcontent may be the better choice."]

/-- The substitutions that are never applied. -/
def serverExclusions : List Exclusion := [
  { command := "ns_writecontent", replacement := some contentCopy,
    reason := contentSpooling },
  { command := "ns_conncptofp", replacement := some contentCopy,
    reason := contentSpooling },
  { command := "ns_httpget", replacement := none,
    reason := "No mechanical replacement; port to ns_http by hand." },
  { command := "ns_set print", replacement := none,
    reason := "No mechanical replacement; output format differs." }]

/-- The rules that are used unless others are given. -/
def server : RuleSet where
  deprecated := deprecatedCommands
  modernize := modernizeCommands
  rules := serverRules
  excluded := serverExclusions

end Renewal.RuleSet
